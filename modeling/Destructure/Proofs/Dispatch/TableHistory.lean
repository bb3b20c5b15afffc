import Destructure.Proofs.Dispatch.Caching
import Mathlib

/-!
# Destructure.Proofs.Dispatch.TableHistory

What holds of a table at any time, whatever has been done through its handles: `table_history`.

Design points:

* A table is made together with its first handle, and all other handles are clones, so all of them
  have one limit. `TableUsers` has the handles made so far, and a call names one of them by number.
* A lookup that has not found its text reads the text without holding the table. So there may be
  calls in between, and the rest of the lookup is a call of its own (`HandleCall.parseAndKeep`).
* A table is a map: no text is in it twice. It is also a map to things: no two texts lead to one
  identity, so being given a thing again tells more than being given an equal pattern.

Proof shape: `CacheStore.Keeps` is the invariant of a table. A lookup either adds its text to the
table or leaves the table as it was (`parseAndKeep_of_takes`, `parseAndKeep_of_not_takes`). So one
call keeps the invariant (`TableUsers.Sound.run`) and, unless it clears the table, all that is in it
(`TableUsers.Sound.get?_run`). Histories follow by induction on the calls.
-/

namespace Destructure

variable {s : CacheStore} {c : Cache} {text : String} {p : SharedPattern}

/-! ### Looking up a text in one table -/

/-- Is the text one that the handle adds to the table when it is asked for it? It is if the table
does not have it, if it is a pattern and if there is room. -/
def Cache.Takes (c : Cache) (text : String) (s : CacheStore) : Prop :=
  c.get? text s = none ∧ (∃ p, Pattern.parse text = .ok p) ∧
    ∀ limit, c.limit = some limit → (s.table c.table).length < limit

theorem isFull_eq_false_iff :
    c.isFull s = false ↔ ∀ limit, c.limit = some limit → (s.table c.table).length < limit := by
  unfold Cache.isFull Cache.size
  cases c.limit <;> simp

/-- A text that the table takes is added at its end, with the pattern that is given. -/
theorem parseAndKeep_of_takes (h : c.Takes text s) :
    ∃ p, (c.parseAndKeep text s).result = .ok (s.share p) ∧ (c.parseAndKeep text s).store =
      s.afterFresh.setTable c.table (s.table c.table ++ [(text, s.share p)]) := by
  obtain ⟨habsent, ⟨q, hq⟩, hroom⟩ := h
  rcases parseAndKeep_cases c text s with
    ⟨e, he, -, -⟩ | ⟨p, kept, -, hget, -, -⟩ | ⟨p, -, -, hr, hs⟩
  · cases he.symm.trans hq
  · cases hget.symm.trans habsent
  · have hfull : ¬ c.isFull s = true := by
      rw [isFull_eq_false_iff.2 hroom]
      exact Bool.false_ne_true
    rw [if_neg hfull] at hs
    exact ⟨p, hr, hs⟩

/-- A text that the table does not take changes nothing but the supply of identities. -/
theorem parseAndKeep_of_not_takes (h : ¬ c.Takes text s) :
    (c.parseAndKeep text s).store = s ∨ (c.parseAndKeep text s).store = s.afterFresh := by
  rcases parseAndKeep_cases c text s with
    ⟨e, -, -, hs⟩ | ⟨p, kept, -, -, -, hs⟩ | ⟨p, hp, hget, -, hs⟩
  · exact .inl hs
  · exact .inr hs
  · right
    by_cases hfull : c.isFull s = true
    · rw [hs, if_pos hfull]
    · exact absurd ⟨hget, ⟨p, hp⟩, isFull_eq_false_iff.1 (Bool.eq_false_iff.2 hfull)⟩ h

/-- What a lookup of a text through a handle should give and do. -/
structure Lookup.Correct (l : Lookup) (c : Cache) (text : String) (s : CacheStore) : Prop where
  /-- It gives what reading the text gives, be it a pattern or an error. -/
  result_eq : l.result.map (·.pattern) = Pattern.parse text
  /-- A pattern that is kept is given itself, and not another one that is equal. -/
  of_get? : ∀ p, c.get? text s = some p → l.result = .ok p
  /-- What is taken is the pattern that is given, and nothing else is taken or dropped. -/
  of_takes : c.Takes text s →
    ∃ p, l.result = .ok p ∧ l.store.table c.table = s.table c.table ++ [(text, p)]
  of_not_takes : ¬ c.Takes text s → l.store.table c.table = s.table c.table
  of_error : ∀ e, Pattern.parse text = .error e → l.store = s

namespace CacheStore

theorem table_setTable {i : Nat} (h : i < s.tables.length) (t : Table) :
    (s.setTable i t).table i = t := by
  simp [table, setTable, h]

theorem table_newCache (s : CacheStore) (limit : Option Nat) :
    (s.newCache limit).2.table (s.newCache limit).1.table = [] := by
  simp [newCache, table]

/-- What always holds of the table of a handle. -/
structure Keeps (s : CacheStore) (c : Cache) : Prop where
  lt_length : c.table < s.tables.length
  faithful : s.Faithful
  nodup_texts : ((s.table c.table).map (·.1)).Nodup
  nodup_identities : ((s.table c.table).map (·.2.identity.index)).Nodup
  identity_lt : ∀ e ∈ s.table c.table, e.2.identity.index < s.supply.next
  length_le : ∀ limit, c.limit = some limit → (s.table c.table).length ≤ limit

/-- An empty table is as it should be. -/
theorem Faithful.keeps (h : s.Faithful) (hlength : c.table < s.tables.length)
    (hempty : s.table c.table = []) : s.Keeps c where
  lt_length := hlength
  faithful := h
  nodup_texts := by simp [hempty]
  nodup_identities := by simp [hempty]
  identity_lt := by simp [hempty]
  length_le := by simp [hempty]

theorem Faithful.keeps_newCache (h : s.Faithful) (limit : Option Nat) :
    (s.newCache limit).2.Keeps (s.newCache limit).1 := by
  refine (h.newCache limit).keeps ?_ (s.table_newCache limit)
  simp [CacheStore.newCache]

theorem Keeps.table_clear (h : s.Keeps c) : (c.clear s).table c.table = [] :=
  table_setTable h.lt_length []

theorem Keeps.clear (h : s.Keeps c) : (c.clear s).Keeps c := by
  refine (h.faithful.clear c).keeps ?_ h.table_clear
  simpa [Cache.clear, setTable] using h.lt_length

theorem Keeps.afterFresh (h : s.Keeps c) : s.afterFresh.Keeps c where
  lt_length := h.lt_length
  faithful := h.faithful
  nodup_texts := h.nodup_texts
  nodup_identities := h.nodup_identities
  identity_lt e he := Nat.lt_succ_of_lt (h.identity_lt e he)
  length_le := h.length_le

/-- A lookup keeps the invariant of the table. -/
theorem Keeps.parseAndKeep (h : s.Keeps c) (text : String) :
    (c.parseAndKeep text s).store.Keeps c := by
  by_cases htakes : c.Takes text s
  · obtain ⟨p, -, hs⟩ := parseAndKeep_of_takes htakes
    have htable : (c.parseAndKeep text s).store.table c.table =
        s.table c.table ++ [(text, s.share p)] := by
      rw [hs]
      exact table_setTable h.lt_length _
    have habsent : text ∉ (s.table c.table).map (·.1) := lookup_eq_none_iff.1 htakes.1
    -- All identities in the table came from the supply, and so they are behind the next one.
    have hfresh : s.supply.next ∉ (s.table c.table).map (·.2.identity.index) := by
      intro hmem
      obtain ⟨e, he, heq⟩ := List.mem_map.1 hmem
      exact Nat.ne_of_lt (h.identity_lt e he) heq
    refine ⟨?_, h.faithful.parseAndKeep c text, ?_, ?_, ?_, ?_⟩
    · rw [hs]
      exact Nat.lt_of_lt_of_eq h.lt_length List.length_set.symm
    · rw [htable, List.map_append]
      exact List.concat_eq_append ▸ h.nodup_texts.concat habsent
    · rw [htable, List.map_append]
      exact List.concat_eq_append ▸ h.nodup_identities.concat hfresh
    · rw [htable, hs]
      intro e he
      rcases List.mem_append.1 he with he | he
      · exact Nat.lt_succ_of_lt (h.identity_lt e he)
      · rw [List.mem_singleton.1 he]
        exact Nat.lt_succ_self _
    · intro limit hlimit
      rw [htable, List.length_append]
      exact htakes.2.2 limit hlimit
  · rcases parseAndKeep_of_not_takes htakes with hs | hs
    · rw [hs]
      exact h
    · rw [hs]
      exact h.afterFresh

theorem Keeps.correct_parseAndKeep (h : s.Keeps c) (text : String) :
    (c.parseAndKeep text s).Correct c text s where
  result_eq := h.faithful.parseAndKeep_result c text
  of_get? p hget := by
    rcases parseAndKeep_cases c text s with
      ⟨e, he, -, -⟩ | ⟨q, kept, -, hget', hr, -⟩ | ⟨q, -, habsent, -, -⟩
    · cases he.symm.trans (h.faithful.get? hget)
    · rw [hr, Option.some.inj (hget'.symm.trans hget)]
    · cases habsent.symm.trans hget
  of_takes htakes := by
    obtain ⟨p, hr, hs⟩ := parseAndKeep_of_takes htakes
    refine ⟨s.share p, hr, ?_⟩
    rw [hs]
    exact table_setTable h.lt_length _
  of_not_takes htakes := by
    rcases parseAndKeep_of_not_takes htakes with hs | hs
    · rw [hs]
    · rw [hs]
      rfl
  of_error e he := by
    rcases parseAndKeep_cases c text s with
      ⟨e, -, -, hs⟩ | ⟨p, kept, hp, -, -, -⟩ | ⟨p, hp, -, -, -⟩
    · exact hs
    · cases he.symm.trans hp
    · cases he.symm.trans hp

/-- A lookup does what it should wherever the invariant holds. -/
theorem Keeps.correct_getOrParse (h : s.Keeps c) (text : String) :
    (c.getOrParse text s).Correct c text s := by
  cases hget : c.get? text s with
  | none =>
    rw [getOrParse_of_get?_eq_none hget]
    exact h.correct_parseAndKeep text
  | some p =>
    refine ⟨h.faithful.getOrParse_result c text, ?_, ?_, ?_, ?_⟩
    · intro q hq
      rw [getOrParse_of_get? hq]
    · intro htakes
      cases htakes.1.symm.trans hget
    · intro _
      rw [getOrParse_of_get? hget]
    · intro e _
      rw [getOrParse_of_get? hget]

/-- What is in a table stays there when a text is looked up, and is what its text leads to. -/
theorem Keeps.get?_parseAndKeep (h : s.Keeps c) (hget : c.get? text s = some p) (text' : String) :
    c.get? text (c.parseAndKeep text' s).store = some p := by
  have hcorrect := h.correct_parseAndKeep text'
  unfold Cache.get? at hget ⊢
  by_cases htakes : c.Takes text' s
  · obtain ⟨q, -, htable⟩ := hcorrect.of_takes htakes
    rw [htable, lookup_append, hget, Option.some_or]
  · rw [hcorrect.of_not_takes htakes]
    exact hget

end CacheStore

/-! ### Calls through handles -/

/-- What may be done with a handle. -/
inductive HandleCall where
  | getOrParse (text : String)
  /-- The rest of a lookup that has not found its text, some calls ago. -/
  | parseAndKeep (text : String)
  | get (text : String)
  | contains (text : String)
  | clear
  | clone
  deriving DecidableEq, Repr

/-- The handles of one table, which are the first one and its clones, and the store. -/
structure TableUsers where
  handles : List Cache
  store : CacheStore

namespace TableUsers

/-- A new table with its first handle. -/
def create (limit : Option Nat) (s : CacheStore) : TableUsers :=
  ⟨[(s.newCache limit).1], (s.newCache limit).2⟩

/-- A call through the handle with a number. Without such a handle nothing happens. -/
def run (users : TableUsers) (call : Nat × HandleCall) : TableUsers :=
  match users.handles[call.1]?, call.2 with
  | some c, .getOrParse text => { users with store := (c.getOrParse text users.store).store }
  | some c, .parseAndKeep text => { users with store := (c.parseAndKeep text users.store).store }
  | some c, .clear => { users with store := c.clear users.store }
  | some c, .clone => { users with handles := users.handles ++ [c] }
  -- The other calls only look at the table.
  | _, _ => users

def runAll (users : TableUsers) (calls : List (Nat × HandleCall)) : TableUsers :=
  calls.foldl run users

/-- All handles are the handle `c`, and its table is as it should be. -/
structure Sound (c : Cache) (users : TableUsers) : Prop where
  eq_of_mem : ∀ d ∈ users.handles, d = c
  mem : c ∈ users.handles
  keeps : users.store.Keeps c

variable {users : TableUsers}

theorem sound_create (h : s.Faithful) (limit : Option Nat) :
    (create limit s).Sound (s.newCache limit).1 :=
  ⟨fun _ hd => List.mem_singleton.1 hd, List.mem_singleton_self _, h.keeps_newCache limit⟩

/-- What a call does, in terms of the one handle that there is. -/
theorem Sound.run_cases (h : users.Sound c) (call : Nat × HandleCall) :
    users.run call = users ∨
      (∃ text, users.run call = { users with store := (c.parseAndKeep text users.store).store }) ∨
      (call.2 = .clear ∧ users.run call = { users with store := c.clear users.store }) ∨
      users.run call = { users with handles := users.handles ++ [c] } := by
  obtain ⟨i, call⟩ := call
  unfold run
  cases hhandle : users.handles[i]? with
  | none => exact .inl rfl
  | some d =>
    obtain rfl := h.eq_of_mem d (List.mem_of_getElem? hhandle)
    cases call with
    | getOrParse text =>
      dsimp only
      cases hget : d.get? text users.store with
      | some p =>
        rw [getOrParse_of_get? hget]
        exact .inl rfl
      | none =>
        rw [getOrParse_of_get?_eq_none hget]
        exact .inr (.inl ⟨text, rfl⟩)
    | parseAndKeep text => exact .inr (.inl ⟨text, rfl⟩)
    | get text => exact .inl rfl
    | contains text => exact .inl rfl
    | clear => exact .inr (.inr (.inl ⟨rfl, rfl⟩))
    | clone => exact .inr (.inr (.inr rfl))

/-- Every call keeps the handles and the table sound. -/
theorem Sound.run (h : users.Sound c) (call : Nat × HandleCall) : (users.run call).Sound c := by
  rcases h.run_cases call with hrun | ⟨text, hrun⟩ | ⟨-, hrun⟩ | hrun
  · rw [hrun]
    exact h
  · rw [hrun]
    exact ⟨h.eq_of_mem, h.mem, h.keeps.parseAndKeep text⟩
  · rw [hrun]
    exact ⟨h.eq_of_mem, h.mem, h.keeps.clear⟩
  · rw [hrun]
    refine ⟨?_, List.mem_append_left _ h.mem, h.keeps⟩
    intro d hd
    rcases List.mem_append.1 hd with hd | hd
    · exact h.eq_of_mem d hd
    · exact List.mem_singleton.1 hd

theorem Sound.runAll (h : users.Sound c) (calls : List (Nat × HandleCall)) :
    (users.runAll calls).Sound c := by
  induction calls generalizing users with
  | nil => exact h
  | cons call calls ih => exact ih (h.run call)

/-- No call but clearing takes anything out of the table, or puts something else in its place. -/
theorem Sound.get?_run (h : users.Sound c) {call : Nat × HandleCall} (hcall : call.2 ≠ .clear)
    (hget : c.get? text users.store = some p) : c.get? text (users.run call).store = some p := by
  rcases h.run_cases call with hrun | ⟨text', hrun⟩ | ⟨hclear, -⟩ | hrun
  · rw [hrun]
    exact hget
  · rw [hrun]
    exact h.keeps.get?_parseAndKeep hget text'
  · exact absurd hclear hcall
  · rw [hrun]
    exact hget

theorem Sound.get?_runAll (h : users.Sound c) {calls : List (Nat × HandleCall)}
    (hcalls : ∀ call ∈ calls, call.2 ≠ .clear) (hget : c.get? text users.store = some p) :
    c.get? text (users.runAll calls).store = some p := by
  induction calls generalizing users with
  | nil => exact hget
  | cons call calls ih =>
    obtain ⟨hcall, hcalls⟩ := List.forall_mem_cons.1 hcalls
    exact ih (h.run call) hcalls (h.get?_run hcall hget)

end TableUsers

/-! ### Histories of a table -/

/-- **The life of a table.** Make a table at any time and call its handles in any way. It is a map
from texts to the patterns that they spell, each a thing of its own, and it has never more of them
than the limit allows. A lookup gives what reading the text gives, takes the text into the table if
it is a new pattern and there is room, and changes nothing in the table otherwise. What is in the
table is what all handles give for its text until the table is cleared, which empties it. -/
theorem table_history (before : List CacheOp) (limit : Option Nat)
    (calls : List (Nat × HandleCall)) :
    let users := (TableUsers.create limit (CacheOp.runAll before {})).runAll calls
    let s := users.store
    users.handles ≠ [] ∧ ∀ c ∈ users.handles,
      c.limit = limit ∧ (∀ n, limit = some n → (s.table c.table).length ≤ n) ∧
      ((s.table c.table).map (·.1)).Nodup ∧
      (∀ text p, (text, p) ∈ s.table c.table → Pattern.parse text = .ok p.pattern) ∧
      (∀ text p text' p', (text, p) ∈ s.table c.table → (text', p') ∈ s.table c.table →
        p.identity = p'.identity → text = text') ∧
      (∀ text p, c.get? text s = some p ↔ (text, p) ∈ s.table c.table) ∧
      (∀ text, (c.getOrParse text s).Correct c text s ∧
        (c.parseAndKeep text s).Correct c text s) ∧
      (c.clear s).table c.table = [] ∧
      ∀ text p, c.get? text s = some p →
        ∀ later : List (Nat × HandleCall), (∀ call ∈ later, call.2 ≠ .clear) →
          let users' := users.runAll later
          ∀ d ∈ users'.handles, d.get? text users'.store = some p ∧
            d.contains text users'.store = true ∧
            d.getOrParse text users'.store = ⟨.ok p, users'.store, [.cacheHit text]⟩ := by
  intro users s
  have hfaithful : (CacheOp.runAll before {}).Faithful :=
    CacheStore.faithful_empty.runAll before
  have hsound : users.Sound ((CacheOp.runAll before {}).newCache limit).1 :=
    (TableUsers.sound_create hfaithful limit).runAll calls
  refine ⟨List.ne_nil_of_mem hsound.mem, ?_⟩
  intro c hc
  obtain rfl := hsound.eq_of_mem c hc
  have hkeeps : s.Keeps _ := hsound.keeps
  refine ⟨rfl, hkeeps.length_le, hkeeps.nodup_texts, ?_, ?_, ?_, ?_, hkeeps.table_clear, ?_⟩
  · intro text p hmem
    exact hkeeps.faithful.table _ (text, p) hmem
  · intro text p text' p' hp hp' hidentity
    have heq := List.inj_on_of_nodup_map hkeeps.nodup_identities hp hp' (congrArg _ hidentity)
    exact congrArg Prod.fst heq
  · intro text p
    exact lookup_eq_some_iff hkeeps.nodup_texts
  · intro text
    exact ⟨hkeeps.correct_getOrParse text, hkeeps.correct_parseAndKeep text⟩
  · intro text p hget later hlater users' d hd
    obtain rfl := (hsound.runAll later).eq_of_mem d hd
    have hget' := hsound.get?_runAll hlater hget
    refine ⟨hget', ?_, getOrParse_of_get? hget'⟩
    rw [Cache.contains, hget']
    rfl

/-- A table with room for one pattern has one. It keeps it, and gives it to all, when a text comes
that there is no room for, and when another lookup of its text turns out to be late. -/
theorem table_history_of_late_lookup :
    let users := (TableUsers.create (some 1) (CacheOp.runAll [] {})).runAll
      [(0, .getOrParse "x"), (0, .clone)]
    let users' := users.runAll [(1, .getOrParse "y"), (0, .parseAndKeep "x")]
    ∀ d ∈ users'.handles, d.get? "x" users'.store = some ⟨⟨0⟩, .binder "x"⟩ := by
  intro users users' d hd
  have husers : users = ⟨[⟨0, some 1⟩, ⟨0, some 1⟩], ⟨[[("x", ⟨⟨0⟩, .binder "x"⟩)]], ⟨1⟩⟩⟩ := by
    unfold users
    cbv
  have hmem : ⟨0, some 1⟩ ∈ users.handles := by
    rw [husers]
    exact List.mem_cons_self
  have hget : Cache.get? ⟨0, some 1⟩ "x" users.store = some ⟨⟨0⟩, .binder "x"⟩ := by
    rw [husers]
    rfl
  obtain ⟨-, hall⟩ := table_history [] (some 1) [(0, .getOrParse "x"), (0, .clone)]
  obtain ⟨-, -, -, -, -, -, -, -, hlater⟩ := hall _ hmem
  exact (hlater "x" _ hget _ (by decide) d hd).1

end Destructure
