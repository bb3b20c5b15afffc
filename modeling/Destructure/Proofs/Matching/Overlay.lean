import Destructure.Proofs.Matching.Binders

/-!
# Destructure.Proofs.Matching.Overlay

What a match does does not depend on the bindings that it starts from. It lays the bindings of the
same match from none over them: `matchInto_overlays`.

Proof shape: a run of tests inserts a list of captures that its start has no part in
(`exists_inserts_runTests`). Inserting that list is the same as inserting what is left of it once it
has been made into bindings of its own (`Bindings.insertAll_entries_insertAll`).
-/

namespace Destructure

/-- However a run ends, it has inserted captures, and these are the same from any start. -/
theorem exists_inserts_runTests (v : Value) (ts : List Test) :
    ∃ result captures, ∀ b, runTests v ts b = (result, b.insertAll captures) := by
  induction ts with
  | nil => exact ⟨.ok true, [], fun b => rfl⟩
  | cons t ts ih =>
    by_cases ht : t.holds v = true
    · obtain ⟨result, captures, hrun⟩ := ih
      cases hcapture : t.isCapture with
      | true =>
        obtain ⟨c, -, hbind⟩ := exists_captures hcapture ht
        refine ⟨result, c :: captures, fun b => ?_⟩
        rw [runTests, if_pos ht, hbind, hrun]
        rfl
      | false =>
        refine ⟨result, captures, fun b => ?_⟩
        rw [runTests, if_pos ht, bind_of_not_isCapture hcapture, hrun]
    · refine ⟨t.failure false, [], fun b => ?_⟩
      rw [runTests, if_neg ht]
      rfl

/-- **A match lays what it binds over the bindings that it is given**, and ends as it does from
none. Names that were bound keep their places, those of the match take the value of the match, new
names follow in the order of their captures, and all other values stay. -/
theorem matchInto_overlays (p : Pattern) (v : Value) (b : Bindings) :
    p.matchInto v b =
        ((p.matchInto v .empty).1, b.insertAll (p.matchInto v .empty).2.entries) ∧
      (p.matchInto v b).2.names =
        b.names ++ (p.matchInto v .empty).2.names.filter (· ∉ b.names) ∧
      ∀ name, (p.matchInto v b).2.get? name =
        ((p.matchInto v .empty).2.get? name).or (b.get? name) := by
  obtain ⟨result, captures, hrun⟩ := exists_inserts_runTests v p.tests
  have hoverlay : p.matchInto v b =
      ((p.matchInto v .empty).1, b.insertAll (p.matchInto v .empty).2.entries) := by
    rw [matchInto_eq_runTests, matchInto_eq_runTests, hrun, hrun,
      Bindings.insertAll_entries_insertAll]
    rfl
  refine ⟨hoverlay, ?_, fun name => ?_⟩
  · rw [hoverlay, Bindings.names_insertAll_entries]
  · rw [hoverlay, Bindings.get?_insertAll_entries]

end Destructure
