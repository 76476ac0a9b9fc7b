import BinaryLambda.Proofs.Bench
import BinaryLambda.Proofs.Term.Listing

/-!
What is in a table.

Every entry of a table is the number of terms in the class of its key, also where the
bound or the size is negative, and fits the type of the table. Entries are there to
stay: no operation changes or removes one, be it that the operation fails.
-/

namespace BinaryLambda

theorem Key.encard_inClass (key : Key) :
    {term : Term | term.InClass key.bound key.size}.encard = key.classSize := by
  rcases Int.lt_or_le key.size 0 with negative | nonneg
  · have empty : {term : Term | term.InClass key.bound key.size} = ∅ := by
      rw [Set.eq_empty_iff_forall_notMem]
      rintro term ⟨wellFormed, size_eq, _⟩
      have := wellFormed.two_le_size
      omega
    rw [empty, Set.encard_empty, Key.classSize, Int.toNat_of_nonpos (by omega), classSize_zero]
    rfl
  · rw [Key.classSize, ← BinaryLambda.encard_inClass, Int.toNat_of_nonneg nonneg]

/-- After any operations every entry of the table is the number of terms in its class
and fits the type, and any further operations leave it as it is. -/
theorem cache_sound (type : IntType) (operations later : List Operation) :
    let bench := (Bench.fresh type).run operations
    (∀ key value, bench.table.get? key = some value →
      {term : Term | term.InClass key.bound key.size}.encard = value ∧ type.Fits value ∧
        (bench.run later).table.get? key = some value) ∧
      ∀ (bound : Nat) (term : Term), term.freeBound bound = 0 ↔ term.IsValid bound := by
  intro bench
  have sound : bench.table.Sound := (Bench.soundFrom_run_fresh type operations).sound
  refine ⟨fun key value found => ?_, fun bound term => term.freeBound_eq_zero_iff bound⟩
  obtain ⟨right, fits⟩ := sound found
  rw [Bench.intType_run_fresh type operations] at fits
  refine ⟨?_, fits, ?_⟩
  · rw [right, Key.encard_inClass]
  · exact CountTable.get?_of_le (Bench.soundFrom_run sound later).le found

theorem cache_sound_identity :
    let bench := (Bench.fresh (.signed .w8)).run [.openSequence (.int 0) (.int 4)]
    bench.table.get? ⟨0, 4⟩ = some 1 ∧ {term : Term | term.InClass 0 4}.encard = 1 ∧
      (bench.run [.ask (.count (.int 0) (.int 17))]).table.get? ⟨0, 4⟩ = some 1 := by
  intro bench
  have opened : ⟨0, 4, 1⟩ ∈ bench.handles.sequences := by
    rw [← classSize_closed_four]
    exact Bench.mem_sequences_after_openSequence (CountTable.sound_fresh _)
      (IntType.fits_closed_four _)
  have found := Bench.hasSequences_run_fresh _ _ _ opened
  obtain ⟨right, _, kept⟩ := (cache_sound (.signed .w8) [.openSequence (.int 0) (.int 4)]
    [.ask (.count (.int 0) (.int 17))]).1 ⟨0, 4⟩ 1 found
  exact ⟨found, right, kept⟩

end BinaryLambda
