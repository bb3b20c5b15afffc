import Destructure.Proofs.Dispatch.TableHistory
import Destructure.Proofs.Dispatch.Validation
import Mathlib.Data.List.TakeWhile

/-!
# Destructure.Proofs.Dispatch.Footprint

What a matcher leaves in the table of its cache: `matcher_footprint`.

Design points:

* Applying and validating a matcher differ in how far they get. Both look up the texts of its arms
  from the first on and stop at one of them (`upTo`).
* `Cache.newTexts` says what a table takes in without asking for one text after the other: the
  patterns that it does not have, each once, and as many of them as there is room for.
* The limit is that of the handle. Nothing is said about how full the table is before, so handles
  of one table may have different limits.

Proof shape: the store after a run is that after looking up texts in order (`state_tryArms`,
`store_validateArms`). `getOrParse_cases` says what one lookup can do to a store. It adds its text
or not, and `newTexts` follows it in both cases (`newTexts_of_takes`, `newTexts_of_not_takes`).
-/

namespace Destructure

variable {α σ : Type}

/-! ### The first part of a list -/

/-- All up to the first that satisfies `p`, and that one too. -/
def upTo (p : α → Bool) (xs : List α) : List α :=
  xs.takeWhile (fun x => !p x) ++ (xs.find? p).toList

theorem upTo_cons (p : α → Bool) (x : α) (xs : List α) :
    upTo p (x :: xs) = x :: if p x then [] else upTo p xs := by
  unfold upTo
  cases h : p x <;> simp [h]

theorem mem_of_mem_upTo {p : α → Bool} {x : α} {xs : List α} (h : x ∈ upTo p xs) : x ∈ xs := by
  induction xs with
  | nil => exact h
  | cons y xs ih =>
    rw [upTo_cons] at h
    rcases List.mem_cons.1 h with rfl | h
    · exact List.mem_cons_self
    · split at h
      · exact absurd h List.not_mem_nil
      · exact List.mem_cons_of_mem _ (ih h)

/-- What comes before an item of the first part does not satisfy `p`. -/
theorem concat_prefix_upTo_iff {p : α → Bool} {xs ys : List α} {x : α} :
    ys ++ [x] <+: upTo p xs ↔ ys ++ [x] <+: xs ∧ ∀ y ∈ ys, p y = false := by
  induction xs generalizing ys with
  | nil => simp [upTo]
  | cons z xs ih =>
    rw [upTo_cons]
    cases ys with
    | nil => simp [List.cons_prefix_cons]
    | cons y ys =>
      rw [List.cons_append, List.cons_prefix_cons, List.cons_prefix_cons, List.forall_mem_cons]
      cases hz : p z with
      | true =>
        constructor
        · simp
        · rintro ⟨⟨rfl, -⟩, hy, -⟩
          cases hy.symm.trans hz
      | false =>
        rw [if_neg Bool.false_ne_true, ih]
        constructor
        · rintro ⟨rfl, hys, hall⟩
          exact ⟨⟨rfl, hys⟩, hz, hall⟩
        · rintro ⟨⟨rfl, hys⟩, -, hall⟩
          exact ⟨rfl, hys, hall⟩

/-! ### Texts that are looked up -/

/-- The state after one text after the other has been resolved. -/
def resolveAll (resolve : String → σ → Resolved σ) (texts : List String) (s : σ) : σ :=
  texts.foldl (fun s text => (resolve text s).state) s

/-- The loop resolves the text of an arm and then stops, if the arm decides, or goes on. -/
theorem state_tryArms_cons {Good : σ → Prop} {resolve : String → σ → Resolved σ}
    (h : Resolves Good resolve) (v : Value) (index : Nat) (arm : Arm α) (arms : List (Arm α))
    {s : σ} (hs : Good s) :
    let here := tryArms resolve v index (arm :: arms) s
    let next := (resolve arm.pattern s).state
    (arm.decides v = true ∧ here.state = next) ∨
      (arm.decides v = false ∧ here.state = (tryArms resolve v (index + 1) arms next).state) := by
  simp only [Arm.decides, Arm.outcome, tryArms, h.result arm.pattern s hs, tryMatch_eq_verdict]
  cases Pattern.parse arm.pattern with
  | error e => exact .inl ⟨rfl, rfl⟩
  | ok p =>
    dsimp only
    cases (p.attempt v .empty).verdict with
    | misuse typeName => exact .inl ⟨rfl, rfl⟩
    | mismatch why => exact .inr ⟨rfl, rfl⟩
    | matched =>
      dsimp only
      rcases arm.handler.invoke (p.attempt v .empty).bindings v with ⟨result | result, consulted⟩
      · exact .inr ⟨rfl, rfl⟩
      · exact .inl ⟨rfl, rfl⟩

/-- A dispatch resolves the texts of the arms that it reaches. -/
theorem state_tryArms {Good : σ → Prop} {resolve : String → σ → Resolved σ}
    (h : Resolves Good resolve) (v : Value) (index : Nat) (arms : List (Arm α)) {s : σ}
    (hs : Good s) :
    (tryArms resolve v index arms s).state =
      resolveAll resolve ((reachedArms v arms).map (·.pattern)) s := by
  induction arms generalizing index s with
  | nil => rfl
  | cons arm arms ih =>
    rw [reachedArms_cons, List.map_cons, resolveAll, List.foldl_cons, ← resolveAll]
    rcases state_tryArms_cons h v index arm arms hs with ⟨hd, hstate⟩ | ⟨hd, hstate⟩
    · rw [hstate, hd]
      rfl
    · rw [hstate, hd]
      exact ih (index + 1) (h.state arm.pattern s hs)

theorem store_validateArms {s : CacheStore} (h : s.Faithful) (m : Matcher α)
    (arms : List (Arm α)) :
    (m.validateArms arms s).store =
      resolveAll m.resolve ((upTo (!·.isValid) arms).map (·.pattern)) s := by
  induction arms generalizing s with
  | nil => rfl
  | cons arm arms ih =>
    have hstate := (resolves_matcher m).state arm.pattern s h
    rw [upTo_cons, List.map_cons, resolveAll, List.foldl_cons, ← resolveAll, Matcher.validateArms]
    dsimp only
    rw [(resolves_matcher m).result arm.pattern s h, Arm.isValid]
    cases Pattern.parse arm.pattern with
    | error e => rfl
    | ok p => exact ih hstate

/-! ### What a table takes in -/

variable {s s' : CacheStore} {c : Cache} {text : String} {texts : List String}

/-- All that a lookup can do to a store. -/
theorem getOrParse_cases (c : Cache) (text : String) (s : CacheStore) :
    (c.Takes text s ∧ ∃ p, Pattern.parse text = .ok p ∧ (c.getOrParse text s).store =
      s.afterFresh.setTable c.table (s.table c.table ++ [(text, s.share p)])) ∨
    (¬ c.Takes text s ∧
      ((c.getOrParse text s).store = s ∨ (c.getOrParse text s).store = s.afterFresh)) := by
  cases hget : c.get? text s with
  | some p =>
    refine .inr ⟨fun htakes => ?_, .inl ?_⟩
    · cases htakes.1.symm.trans hget
    · rw [getOrParse_of_get? hget]
  | none =>
    rw [getOrParse_of_get?_eq_none hget]
    by_cases htakes : c.Takes text s
    · obtain ⟨p, hresult, hstore⟩ := parseAndKeep_of_takes htakes
      rcases parseAndKeep_cases c text s with
        ⟨e, -, hresult', -⟩ | ⟨q, kept, -, hkept, -, -⟩ | ⟨q, hparse, -, hresult', -⟩
      · cases hresult.symm.trans hresult'
      · cases hget.symm.trans hkept
      · cases hresult.symm.trans hresult'
        exact .inl ⟨htakes, p, hparse, hstore⟩
    · exact .inr ⟨htakes, parseAndKeep_of_not_takes htakes⟩

namespace Cache

/-- Is the text a pattern that the table does not have? -/
def lacks (c : Cache) (s : CacheStore) (text : String) : Bool :=
  (Pattern.parse text).isOk && !c.contains text s

/-- The patterns among texts that the table does not have, each once. -/
def missing (c : Cache) (texts : List String) (s : CacheStore) : List String :=
  (texts.filter (c.lacks s)).eraseDups

/-- The texts that the table takes in when the handle is asked for one after the other. -/
def newTexts (c : Cache) (texts : List String) (s : CacheStore) : List String :=
  match c.limit with
  | some limit => (c.missing texts s).take (limit - (s.table c.table).length)
  | none => c.missing texts s

/-- From `s` to `s'` the handle was asked for texts, and nothing else happened to any table. What
the table had is still there, and after it come the new texts with the patterns that they spell. -/
structure Footprint (c : Cache) (texts : List String) (s s' : CacheStore) : Prop where
  table_eq : ∃ added : Table, s'.table c.table = s.table c.table ++ added ∧
    added.map (·.1) = c.newTexts texts s ∧ ∀ e ∈ added, Pattern.parse e.1 = .ok e.2.pattern
  others_eq : ∀ i, i ≠ c.table → s'.table i = s.table i

theorem lacks_iff : c.lacks s text = true ↔
    c.get? text s = none ∧ ∃ p, Pattern.parse text = .ok p := by
  unfold lacks contains
  cases Pattern.parse text <;> simp [Except.isOk, Except.toBool]

theorem newTexts_congr (h : s'.table c.table = s.table c.table) (texts : List String) :
    c.newTexts texts s' = c.newTexts texts s := by
  have hlacks : c.lacks s' = c.lacks s := by
    funext t
    rw [lacks, lacks, contains, contains, get?, get?, h]
  rw [newTexts, newTexts, missing, missing, hlacks, h]

theorem newTexts_of_takes {p : SharedPattern} (htakes : c.Takes text s)
    (htable : s'.table c.table = s.table c.table ++ [(text, p)]) :
    c.newTexts (text :: texts) s = text :: c.newTexts texts s' := by
  obtain ⟨habsent, hparse, hroom⟩ := htakes
  have hlacks : c.lacks s' = fun t => !t == text && c.lacks s t := by
    funext t
    rw [lacks, lacks, contains, contains, get?, get?, htable, lookup_append, lookup_cons]
    by_cases ht : t = text <;> simp [ht, Properties.lookup]
  have hmissing : c.missing (text :: texts) s = text :: c.missing texts s' := by
    rw [missing, List.filter_cons_of_pos (lacks_iff.2 ⟨habsent, hparse⟩), List.eraseDups_cons,
      List.filter_filter, missing, hlacks]
  have hlength : (s'.table c.table).length = (s.table c.table).length + 1 := by
    rw [htable, List.length_append]
    rfl
  unfold newTexts
  cases hlimit : c.limit with
  | none => exact hmissing
  | some limit =>
    have hlt := hroom limit hlimit
    have hleft : limit - (s.table c.table).length = limit - (s'.table c.table).length + 1 := by
      omega
    dsimp only
    rw [hmissing, hleft, List.take_succ_cons]

theorem newTexts_of_not_takes (htakes : ¬ c.Takes text s) :
    c.newTexts (text :: texts) s = c.newTexts texts s := by
  by_cases hlacks : c.lacks s text = true
  · -- A pattern is refused only if there is no room, and then there is none for the others.
    obtain ⟨limit, hlimit, hfull⟩ :
        ∃ limit, c.limit = some limit ∧ limit ≤ (s.table c.table).length := by
      by_contra hroom
      obtain ⟨habsent, hparse⟩ := lacks_iff.1 hlacks
      refine htakes ⟨habsent, hparse, fun limit hlimit => ?_⟩
      exact Nat.not_le.1 fun hfull => hroom ⟨limit, hlimit, hfull⟩
    rw [newTexts, newTexts, hlimit]
    dsimp only
    rw [Nat.sub_eq_zero_of_le hfull, List.take_zero, List.take_zero]
  · rw [newTexts, newTexts, missing, missing, List.filter_cons_of_neg hlacks]

end Cache

/-! ### Lookups one after the other -/

theorem table_setTable_of_ne {i j : Nat} (h : j ≠ i) (t : Table) :
    (s.setTable i t).table j = s.table j := by
  simp [CacheStore.table, CacheStore.setTable, List.getElem?_set_ne h.symm]

variable {m : Matcher α}

theorem state_resolve (hc : m.cache = some c) (text : String) (s : CacheStore) :
    (m.resolve text s).state = (c.getOrParse text s).store := by
  rw [Matcher.resolve, hc]

/-- A cached matcher that reads texts in turn adds those that are new, and nothing else. -/
theorem footprint_resolveAll (hc : m.cache = some c) (hlt : c.table < s.tables.length)
    (texts : List String) : c.Footprint texts s (resolveAll m.resolve texts s) := by
  induction texts generalizing s with
  | nil =>
    refine ⟨⟨[], (List.append_nil _).symm, ?_, List.forall_mem_nil _⟩, fun _ _ => rfl⟩
    unfold Cache.newTexts Cache.missing
    cases c.limit <;> simp
  | cons text texts ih =>
    rw [resolveAll, List.foldl_cons, ← resolveAll, state_resolve hc]
    rcases getOrParse_cases c text s with ⟨htakes, p, hparse, hstore⟩ | ⟨htakes, hstore⟩
    · have htable : (c.getOrParse text s).store.table c.table =
          s.table c.table ++ [(text, s.share p)] := by
        rw [hstore]
        exact CacheStore.table_setTable hlt _
      have hlt' : c.table < (c.getOrParse text s).store.tables.length := by
        rw [hstore]
        exact Nat.lt_of_lt_of_eq hlt List.length_set.symm
      obtain ⟨⟨added, hadded, hnew, hspell⟩, hothers⟩ := ih hlt'
      refine ⟨⟨(text, s.share p) :: added, ?_, ?_, List.forall_mem_cons.2 ⟨hparse, hspell⟩⟩, ?_⟩
      · rw [hadded, htable, List.append_assoc, List.singleton_append]
      · rw [List.map_cons, hnew, Cache.newTexts_of_takes htakes htable]
      · intro i hi
        rw [hothers i hi, hstore]
        exact table_setTable_of_ne hi _
    · have htable (i : Nat) : (c.getOrParse text s).store.table i = s.table i := by
        rcases hstore with hstore | hstore <;> rw [hstore]
        rfl
      have hlt' : c.table < (c.getOrParse text s).store.tables.length := by
        rcases hstore with hstore | hstore <;> rw [hstore]
        · exact hlt
        · exact hlt
      obtain ⟨⟨added, hadded, hnew, hspell⟩, hothers⟩ := ih hlt'
      refine ⟨⟨added, ?_, ?_, hspell⟩, fun i hi => (hothers i hi).trans (htable i)⟩
      · rw [hadded, htable]
      · rw [hnew, Cache.newTexts_congr (htable c.table), Cache.newTexts_of_not_takes htakes]

/-- What is asked for and kept already is found, and then nothing changes at all. -/
theorem resolveAll_of_contains (hc : m.cache = some c)
    (h : ∀ text ∈ texts, c.contains text s = true) : resolveAll m.resolve texts s = s := by
  induction texts with
  | nil => rfl
  | cons text texts ih =>
    obtain ⟨htext, htexts⟩ := List.forall_mem_cons.1 h
    obtain ⟨p, hget⟩ := Option.isSome_iff_exists.1 htext
    rw [resolveAll, List.foldl_cons, ← resolveAll, state_resolve hc, getOrParse_of_get? hget]
    exact ih htexts

/-- An application reads the texts of the arms that it reaches. -/
theorem state_apply (h : s.Faithful) (m : Matcher α) (v : Value) :
    (m.apply v s).state = resolveAll m.resolve ((reachedArms v m.arms).map (·.pattern)) s :=
  state_tryArms (resolves_matcher m) v 0 m.arms h

/-! ### What stays in a table -/

theorem table_prefix_setTable (s : CacheStore) (i j : Nat) (added : Table) :
    s.table j <+: (s.setTable i (s.table i ++ added)).table j := by
  by_cases hij : j = i
  · subst hij
    by_cases hlt : j < s.tables.length
    · rw [CacheStore.table_setTable hlt]
      exact List.prefix_append _ _
    · simp only [CacheStore.setTable, List.set_eq_of_length_le (Nat.not_lt.1 hlt),
        List.prefix_rfl]
  · simp only [table_setTable_of_ne hij, List.prefix_rfl]

theorem table_prefix_getOrParse (c : Cache) (text : String) (s : CacheStore) (i : Nat) :
    s.table i <+: (c.getOrParse text s).store.table i := by
  rcases getOrParse_cases c text s with ⟨-, p, -, hstore⟩ | ⟨-, hstore | hstore⟩
  · rw [hstore]
    exact table_prefix_setTable s.afterFresh c.table i _
  · exact ⟨[], (List.append_nil _).trans (congrArg (·.table i) hstore).symm⟩
  · exact ⟨[], (List.append_nil _).trans (congrArg (·.table i) hstore).symm⟩

theorem table_prefix_resolveAll (m : Matcher α) (texts : List String) (s : CacheStore) (i : Nat) :
    s.table i <+: (resolveAll m.resolve texts s).table i := by
  induction texts generalizing s with
  | nil => exact List.prefix_rfl
  | cons text texts ih =>
    have hfirst : s.table i <+: (m.resolve text s).state.table i := by
      cases hc : m.cache with
      | none =>
        unfold Matcher.resolve
        rw [hc]
        exact List.prefix_rfl
      | some c =>
        rw [state_resolve hc]
        exact table_prefix_getOrParse c text s i
    exact hfirst.trans (ih _)

namespace CacheOp

/-- Does the operation clear the table with this number? -/
def Clears (i : Nat) : CacheOp → Prop
  | clear c => c.table = i
  | _ => False

/-- A table only grows by an operation that does not clear it. -/
theorem table_prefix_run (h : s.Faithful) {op : CacheOp} {i : Nat} (hop : ¬ op.Clears i) :
    s.table i <+: (op.run s).table i := by
  have hnew (limit : Option Nat) : s.table i <+: (s.newCache limit).2.table i := by
    unfold CacheStore.table CacheStore.newCache
    rw [List.getElem?_append]
    split
    · exact List.prefix_rfl
    · rename_i hge
      rw [List.getElem?_eq_none (Nat.not_lt.1 hge)]
      exact List.nil_prefix
  have happly {α : Type} (m : Matcher α) (v : Value) :
      s.table i <+: (m.apply v s).state.table i := by
    rw [state_apply h]
    exact table_prefix_resolveAll m _ s i
  cases op with
  | newCache limit => exact hnew limit
  | getOrParse c text => exact table_prefix_getOrParse c text s i
  | clear c =>
    simp only [run, Cache.clear, table_setTable_of_ne (Ne.symm hop), List.prefix_rfl]
  | build b =>
    rw [run, MatcherBuilder.build]
    cases b.usesCache with
    | false => exact List.prefix_rfl
    | true =>
      cases b.shared with
      | none => exact hnew none
      | some c => exact List.prefix_rfl
  | apply m v => exact happly m v
  | applyExhaustive m v => exact happly m v
  | validate m =>
    rw [run, Matcher.validate, store_validateArms h]
    exact table_prefix_resolveAll m _ s i

theorem table_prefix_runAll (h : s.Faithful) {ops : List CacheOp} {i : Nat}
    (hops : ∀ op ∈ ops, ¬ op.Clears i) : s.table i <+: (runAll ops s).table i := by
  induction ops generalizing s with
  | nil => exact List.prefix_rfl
  | cons op ops ih =>
    obtain ⟨hop, hops⟩ := List.forall_mem_cons.1 hops
    exact (table_prefix_run h hop).trans (ih (h.run op) hops)

end CacheOp

theorem contains_of_prefix (h : s.table c.table <+: s'.table c.table)
    (hcontains : c.contains text s = true) : c.contains text s' = true := by
  obtain ⟨added, hadded⟩ := h
  unfold Cache.contains Cache.get? at hcontains ⊢
  rw [← hadded, lookup_append]
  simp [Option.isSome_or, hcontains]

/-- Without a limit, all patterns that were asked for are kept. -/
theorem contains_of_footprint (h : c.Footprint texts s s') (hlimit : c.limit = none)
    (htext : text ∈ texts) (hparse : (Pattern.parse text).isOk = true) :
    c.contains text s' = true := by
  obtain ⟨⟨added, htable, hnew, -⟩, -⟩ := h
  by_cases hcontains : c.contains text s = true
  · exact contains_of_prefix ⟨added, htable.symm⟩ hcontains
  · have hmem : text ∈ added.map (·.1) := by
      rw [hnew, Cache.newTexts, hlimit]
      refine List.mem_eraseDups.2 (List.mem_filter.2 ⟨htext, ?_⟩)
      rw [Cache.lacks, hparse, Bool.eq_false_iff.2 hcontains]
      rfl
    unfold Cache.contains Cache.get?
    rw [Option.isSome_iff_ne_none, ne_eq, lookup_eq_none_iff, not_not, htable, List.map_append]
    exact List.mem_append_right _ hmem

/-! ### Arms that are passed -/

theorem Handler.invoke_eq_none_iff (h : Handler α) (b : Bindings) (v : Value) :
    (h.invoke b v).1 = none ↔ ∃ condition ∈ h.guards, condition b v = false := by
  induction h with
  | value result => simp [Handler.invoke, Handler.guards]
  | call result => simp [Handler.invoke, Handler.guards]
  | guarded condition inner ih =>
    cases hcondition : condition b v <;> simp [Handler.invoke, Handler.guards, hcondition, ih]

/-- The value does not match, or a guard rejects the match. -/
def Arm.Passes (v : Value) (arm : Arm α) : Prop :=
  ∃ p, Pattern.parse arm.pattern = .ok p ∧ (p.tryMatch v = .ok none ∨
    ∃ b, p.tryMatch v = .ok (some b) ∧ ∃ condition ∈ arm.handler.guards, condition b v = false)

theorem Arm.decides_eq_false_iff {v : Value} {arm : Arm α} :
    arm.decides v = false ↔ arm.Passes v := by
  unfold Arm.decides Arm.outcome Arm.Passes
  cases Pattern.parse arm.pattern with
  | error e => simp
  | ok p =>
    cases htry : p.tryMatch v with
    | error e => simp [htry]
    | ok matched =>
      cases matched with
      | none => simp [htry]
      | some b =>
        have hrejected := arm.handler.invoke_eq_none_iff b v
        cases hresult : (arm.handler.invoke b v).1 with
        | none => simpa [htry, hresult] using hrejected.1 hresult
        | some result => simpa [htry, hresult] using hrejected

/-! ### Matchers with a cache -/

/-- After a successful validation without a limit, the matcher finds all that it may ask for. -/
theorem contains_of_validate (h : s.Faithful) (hc : m.cache = some c)
    (hlt : c.table < s.tables.length) (hlimit : c.limit = none)
    (hvalid : (m.validate s).result = .ok ()) {arm : Arm α} (harm : arm ∈ m.arms) :
    c.contains arm.pattern (m.validate s).store = true := by
  have hresult := result_validateArms h m m.arms
  cases hfind : m.arms.find? (!·.isValid) with
  | some bad =>
    rw [hfind] at hresult
    obtain ⟨error, -, hresult⟩ := hresult
    cases hvalid.symm.trans hresult
  | none =>
    have hall : ∀ a ∈ m.arms, a.isValid = true := by simpa using hfind
    have hreached : upTo (!·.isValid) m.arms = m.arms := by
      unfold upTo
      rw [hfind, Option.toList_none, List.append_nil]
      exact List.takeWhile_eq_self_iff.2 (by simpa using hall)
    have hfootprint := footprint_resolveAll hc hlt (m.arms.map (·.pattern))
    rw [Matcher.validate, store_validateArms h, hreached]
    exact contains_of_footprint hfootprint hlimit (List.mem_map_of_mem harm) (hall arm harm)

/-- **What a matcher leaves in its table.** Let a matcher have a cache whose table has been made.
Applied to a value at any time, it looks up the texts of the arms up to the first that it does not
pass, and the table takes in those that are patterns, that it does not have and that there is room
for, in this order and nothing else. Validating does the same with the arms up to the first that is
invalid. So if it succeeds and there is no limit, applying the matcher changes nothing any more, as
long as nobody clears the table. -/
theorem matcher_footprint (calls : List (BuilderCall α)) (before after : List CacheOp)
    (c : Cache) :
    let built := (BuilderCall.runAll calls {}).build (CacheOp.runAll before {})
    let m := built.1
    let s := CacheOp.runAll after built.2
    m.cache = some c → c.table < s.tables.length →
      (∀ v, c.Footprint ((reachedArms v m.arms).map (·.pattern)) s (m.apply v s).state ∧
        ∀ xs arm, xs ++ [arm] <+: reachedArms v m.arms ↔
          xs ++ [arm] <+: m.arms ∧ ∀ a ∈ xs, a.Passes v) ∧
      (c.Footprint ((upTo (!·.isValid) m.arms).map (·.pattern)) s (m.validate s).store ∧
        ∀ xs arm, xs ++ [arm] <+: upTo (!·.isValid) m.arms ↔
          xs ++ [arm] <+: m.arms ∧ ∀ a ∈ xs, a.isValid = true) ∧
      (c.limit = none → (m.validate s).result = .ok () →
        ∀ later : List CacheOp, (∀ op ∈ later, ¬ op.Clears c.table) → ∀ v,
          let s' := CacheOp.runAll later (m.validate s).store
          (m.apply v s').state = s') := by
  intro built m s hc hlt
  have hs : s.Faithful := ((CacheStore.faithful_empty.runAll before).build _).runAll after
  refine ⟨fun v => ⟨?_, fun xs arm => ?_⟩, ⟨?_, fun xs arm => ?_⟩, ?_⟩
  · rw [state_apply hs]
    exact footprint_resolveAll hc hlt _
  · simp only [← Arm.decides_eq_false_iff]
    exact concat_prefix_upTo_iff
  · rw [Matcher.validate, store_validateArms hs]
    exact footprint_resolveAll hc hlt _
  · rw [concat_prefix_upTo_iff]
    simp only [Bool.not_eq_false']
  · intro hlimit hvalid later hlater v s'
    have hvalidated : (m.validate s).store.Faithful := hs.validateArms m m.arms
    rw [state_apply (hvalidated.runAll later)]
    refine resolveAll_of_contains hc fun text htext => ?_
    obtain ⟨arm, harm, rfl⟩ := List.mem_map.1 htext
    have hkept := contains_of_validate hs hc hlt hlimit hvalid (mem_of_mem_upTo harm)
    exact contains_of_prefix (CacheOp.table_prefix_runAll hvalidated hlater) hkept

/-- A table with room for two patterns takes in the first two that differ, and the arms that a guard
and the value reject are asked for all the same. -/
theorem matcher_footprint_of_full_table :
    let calls : List (BuilderCall Nat) :=
      [.sharedCache ⟨0, some 2⟩, .arm "x" (.guarded (fun _ _ => false) (.value 1)),
        .arm "x" (.guarded (fun _ _ => false) (.value 2)), .arm "null" (.value 3),
        .arm "_" (.value 4)]
    let built := (BuilderCall.runAll calls {}).build (CacheOp.runAll [.newCache (some 2)] {})
    ((built.1.apply .undefined built.2).state.table 0).map (·.1) = ["x", "null"] := by
  intro calls built
  have hx : Pattern.parse "x" = .ok (.binder "x") := by cbv
  have hnull : Pattern.parse "null" = .ok (.constant .null) := by cbv
  have hany : Pattern.parse "_" = .ok .wildcard := by cbv
  have hrejects (n : Nat) : Arm.decides .undefined
      (Arm.mk "x" (.guarded (fun _ _ => false) (.value n))) = false := by
    rw [Arm.decides, Arm.outcome, hx]
    rfl
  have hmismatch : Arm.decides .undefined (Arm.mk "null" (.value 3)) = false := by
    rw [Arm.decides, Arm.outcome, hnull]
    rfl
  have hdecides : Arm.decides .undefined (Arm.mk "_" (.value 4)) = true := by
    rw [Arm.decides, Arm.outcome, hany]
    rfl
  have hreached : (reachedArms .undefined built.1.arms).map (·.pattern) =
      ["x", "x", "null", "_"] := by
    have harms : built.1.arms = [⟨"x", .guarded (fun _ _ => false) (.value 1)⟩,
      ⟨"x", .guarded (fun _ _ => false) (.value 2)⟩, ⟨"null", .value 3⟩, ⟨"_", .value 4⟩] := rfl
    simp [harms, reachedArms_cons, hrejects, hmismatch, hdecides]
  obtain ⟨happly, -⟩ := matcher_footprint calls [.newCache (some 2)] [] ⟨0, some 2⟩ rfl Nat.one_pos
  obtain ⟨⟨⟨added, htable, hnew, -⟩, -⟩, -⟩ := happly .undefined
  have hpatterns : ["x", "x", "null", "_"].filter (Cache.lacks ⟨0, some 2⟩ built.2) =
      ["x", "x", "null", "_"] := by
    have hget (text : String) : Cache.get? ⟨0, some 2⟩ text built.2 = none := rfl
    simp [Cache.lacks, Cache.contains, hget, hx, hnull, hany, Except.isOk, Except.toBool]
  rw [hreached] at hnew
  rw [show (built.1.apply .undefined built.2).state.table 0 = [] ++ added from htable,
    List.nil_append, hnew, Cache.newTexts, Cache.missing]
  dsimp only
  rw [show CacheOp.runAll [] ((BuilderCall.runAll calls {}).build
    (CacheOp.runAll [.newCache (some 2)] {})).2 = built.2 from rfl, hpatterns]
  decide

end Destructure
