import Destructure.Proofs.Dispatch.Caching
import Destructure.Proofs.Dispatch.FirstMatch

/-!
# Destructure.Proofs.Dispatch.Validation

Validating a matcher tells how applying it can fail: `validate_agrees`.

Design points:

* What a matcher does depends on no cache, so the two may happen at any time, and in either order.
  The statement names two histories, and one of them may be a part of the other.
* Histories are lists of operations, and validating is one of them. So a history that goes on after
  a validation is nothing special.

Proof shape: `result_validateArms` says once what validating comes to. A dispatch over arms with an
invalid one among them is cut before that arm (`dispatch_of_invalid`), and so the error is
that of the arm unless an arm before it decides.
-/

namespace Destructure

variable {α : Type} {s : CacheStore}

/-- Is the text of the arm a pattern? -/
def Arm.isValid (arm : Arm α) : Bool := (Pattern.parse arm.pattern).isOk

theorem Arm.isValid_iff {arm : Arm α} :
    arm.isValid = true ↔ ∃ p, Pattern.parse arm.pattern = .ok p := by
  unfold Arm.isValid
  cases Pattern.parse arm.pattern with
  | ok p => exact ⟨fun _ => ⟨p, rfl⟩, fun _ => rfl⟩
  | error e => exact ⟨fun h => absurd h Bool.false_ne_true, fun ⟨p, h⟩ => by cases h⟩

/-- Validating fails at the first arm that is not valid. -/
theorem result_validateArms (h : s.Faithful) (m : Matcher α) (arms : List (Arm α)) :
    match arms.find? (!·.isValid) with
    | none => (m.validateArms arms s).result = .ok ()
    | some arm => ∃ error, Pattern.parse arm.pattern = .error error ∧
        (m.validateArms arms s).result = .error (.invalidPattern arm.pattern error) := by
  induction arms generalizing s with
  | nil => rfl
  | cons arm arms ih =>
    rw [List.find?_cons, Matcher.validateArms]
    dsimp only
    rw [(resolves_matcher m).result arm.pattern s h]
    cases hparse : Pattern.parse arm.pattern with
    | error error =>
      rw [Arm.isValid, hparse]
      exact ⟨error, hparse, rfl⟩
    | ok p =>
      rw [Arm.isValid, hparse]
      exact ih ((resolves_matcher m).state arm.pattern s h)

theorem Arm.outcome_of_invalid {arm : Arm α} {error : ParseError}
    (h : Pattern.parse arm.pattern = .error error) (v : Value) :
    arm.outcome v = (.error (.invalidPattern arm.pattern error), []) := by
  rw [Arm.outcome, h]

/-- Arms after an invalid one are never looked at. -/
theorem dispatch_cons_of_invalid {arm : Arm α} {error : ParseError}
    (h : Pattern.parse arm.pattern = .error error) (v : Value) (arms : List (Arm α)) :
    (dispatch v (arm :: arms)).result = .error (.invalidPattern arm.pattern error) ∧
      (dispatch v (arm :: arms)).consulted = [] := by
  have houtcome := Arm.outcome_of_invalid h v
  have hdecides : arm.decides v = true := by
    rw [Arm.decides, houtcome]
  rw [result_dispatch, consulted_dispatch, List.find?_cons, reachedArms_cons, hdecides]
  simp [houtcome]

/-- A dispatch with an invalid arm ends as one over the arms above that does, or with the error of
the invalid arm if these decide nothing. -/
theorem dispatch_of_invalid {arms : List (Arm α)} {arm : Arm α} {error : ParseError}
    (hfind : arms.find? (!·.isValid) = some arm) (h : Pattern.parse arm.pattern = .error error)
    (v : Value) :
    let above := dispatch v (arms.takeWhile (·.isValid))
    match above.result with
    | .ok none => (dispatch v arms).result = .error (.invalidPattern arm.pattern error) ∧
        (dispatch v arms).consulted = above.consulted
    | decided => (dispatch v arms).result = decided ∧
        (dispatch v arms).consulted = above.consulted := by
  obtain ⟨hinvalid, xs, ys, rfl, hxs⟩ := List.find?_eq_some_iff_append.1 hfind
  have habove : (xs ++ arm :: ys).takeWhile (·.isValid) = xs := by
    have hvalid : ∀ a ∈ xs, a.isValid = true := by simpa using hxs
    rw [List.takeWhile_append_of_pos hvalid, List.takeWhile_cons_of_neg (by simpa using hinvalid),
      List.append_nil]
  have happend := dispatch_append v xs (arm :: ys)
  obtain ⟨hresult, hconsulted⟩ := dispatch_cons_of_invalid h v ys
  rw [hresult, hconsulted, List.append_nil] at happend
  rw [habove]
  exact happend

/-- Without an invalid arm a dispatch fails only for a misused pattern. -/
theorem cause_ne_invalidPattern {arms : List (Arm α)} (h : ∀ arm ∈ arms, arm.isValid = true)
    {v : Value} {e : MatchError} (he : (dispatch v arms).result = .error e) (text : String)
    (error : ParseError) : e.cause ≠ .invalidPattern text error := by
  obtain ⟨arm, hmem, harm⟩ := error_dispatch he
  obtain ⟨p, hp⟩ := Arm.isValid_iff.1 (h arm hmem)
  rcases Arm.outcome_error harm with ⟨error', hparse, -⟩ | ⟨typeName, rfl⟩
  · cases hp.symm.trans hparse
  · intro hcause
    cases hcause

/-- **Validating tells how applying can fail.** Build a matcher after any history, and validate it
and apply it at any time after that, in whatever order. If validating succeeds, applying never
fails for an invalid pattern. If it fails, then with the error of the first invalid arm, and
applying ends as a dispatch over the arms before that one, or with this very error if none of them
decides. And having validated a matcher changes nothing for those that are applied later. -/
theorem validate_agrees (calls : List (BuilderCall α)) (before : List CacheOp) :
    let built := (BuilderCall.runAll calls {}).build (CacheOp.runAll before {})
    let m := built.1
    let storeAfter := fun ops => CacheOp.runAll ops built.2
    (∀ ops, match (m.validate (storeAfter ops)).result with
      | .ok () => ∀ ops' v, ¬ ∃ e text error,
          (m.apply v (storeAfter ops')).result = .error e ∧ e.cause = .invalidPattern text error
      | .error e =>
        (∃ arm error, m.arms.find? (!·.isValid) = some arm ∧
          Pattern.parse arm.pattern = .error error ∧ e = .invalidPattern arm.pattern error) ∧
        ∀ ops' v,
          let applied := m.apply v (storeAfter ops')
          let above := dispatch v (m.arms.takeWhile (·.isValid))
          match above.result with
          | .ok none => applied.result = .error e ∧ applied.consulted = above.consulted
          | decided => applied.result = decided ∧ applied.consulted = above.consulted) ∧
    ∀ (ops later : List CacheOp) (β : Type) (m' : Matcher β) (v : Value),
      let validated := m'.apply v (storeAfter (ops ++ .validate m :: later))
      let unvalidated := m'.apply v (storeAfter (ops ++ later))
      validated.result = unvalidated.result ∧ validated.consulted = unvalidated.consulted := by
  intro built m storeAfter
  have hfaithful (ops : List CacheOp) : (storeAfter ops).Faithful :=
    ((CacheStore.faithful_empty.runAll before).build _).runAll ops
  constructor
  · intro ops
    have hresult := result_validateArms (hfaithful ops) m m.arms
    cases hfind : m.arms.find? (!·.isValid) with
    | none =>
      rw [hfind] at hresult
      rw [Matcher.validate, hresult]
      rintro ops' v ⟨e, text, error, he, hcause⟩
      have hvalid : ∀ arm ∈ m.arms, arm.isValid = true := by simpa using hfind
      rw [(apply_of_faithful (hfaithful ops') m v).1] at he
      exact cause_ne_invalidPattern hvalid he text error hcause
    | some arm =>
      rw [hfind] at hresult
      obtain ⟨error, hparse, hresult⟩ := hresult
      rw [Matcher.validate, hresult]
      refine ⟨⟨arm, error, rfl, hparse, rfl⟩, ?_⟩
      intro ops' v applied above
      obtain ⟨happlied, hconsulted⟩ := apply_of_faithful (hfaithful ops') m v
      rw [happlied, hconsulted]
      exact dispatch_of_invalid hfind hparse v
  · intro ops later β m' v validated unvalidated
    obtain ⟨hresult, hconsulted⟩ := apply_of_faithful (hfaithful (ops ++ .validate m :: later)) m' v
    obtain ⟨hresult', hconsulted'⟩ := apply_of_faithful (hfaithful (ops ++ later)) m' v
    exact ⟨hresult.trans hresult'.symm, hconsulted.trans hconsulted'.symm⟩

/-- Whatever an arm above the invalid one decides stands, and all other values lead to the error
that validating gives. -/
theorem validate_agrees_of_unclosed :
    let calls : List (BuilderCall Nat) := [.arm "null" (.value 1), .arm "[y" (.value 2)]
    let built := (BuilderCall.runAll calls {}).build (CacheOp.runAll [] {})
    ∃ e, (built.1.validate built.2).result = .error e ∧
      ∀ ops, (built.1.apply .null (CacheOp.runAll ops built.2)).result = .ok (some 1) ∧
        (built.1.apply .undefined (CacheOp.runAll ops built.2)).result = .error e := by
  intro calls built
  have hnull : Pattern.parse "null" = .ok (.constant .null) := by cbv
  obtain ⟨error, hy⟩ := exists_error_of_isOk (r := Pattern.parse "[y") (by decide +kernel)
  have harms : built.1.arms = [⟨"null", .value 1⟩, ⟨"[y", .value 2⟩] := rfl
  have hfind : built.1.arms.find? (!·.isValid) = some ⟨"[y", .value 2⟩ := by
    simp [harms, Arm.isValid, hnull, hy, Except.isOk, Except.toBool]
  have hvalid : built.1.arms.takeWhile (·.isValid) = [⟨"null", .value 1⟩] := by
    simp [harms, Arm.isValid, hnull, hy, Except.isOk, Except.toBool]
  have hfaithful : built.2.Faithful := CacheStore.faithful_empty.build _
  have hresult := result_validateArms hfaithful built.1 built.1.arms
  rw [hfind] at hresult
  obtain ⟨error', -, hresult⟩ := hresult
  have hagrees := (validate_agrees calls []).1 []
  rw [show (built.1.validate (CacheOp.runAll [] built.2)).result = _ from hresult] at hagrees
  refine ⟨_, hresult, fun ops => ?_⟩
  have hdecided := hagrees.2 ops .null
  have hnone := hagrees.2 ops .undefined
  dsimp only at hdecided hnone
  rw [hvalid] at hdecided hnone
  have houtcome (v : Value) (matched : Option Bindings)
      (h : Pattern.tryMatch (.constant .null) v = .ok matched) :
      (dispatch v [Arm.mk "null" (Handler.value 1)]).result = .ok (matched.map fun _ => 1) := by
    have harm : Arm.outcome v (Arm.mk "null" (Handler.value 1)) =
        (.ok (matched.map fun _ => 1), []) := by
      rw [Arm.outcome, hnull]
      dsimp only
      rw [h]
      cases matched <;> rfl
    rw [result_dispatch, List.find?_cons, Arm.decides, harm]
    cases matched with
    | none => rfl
    | some b => exact congrArg Prod.fst harm
  rw [houtcome .null (some .empty) rfl] at hdecided
  rw [houtcome .undefined none rfl] at hnone
  exact ⟨hdecided.1, hnone.1⟩

end Destructure
