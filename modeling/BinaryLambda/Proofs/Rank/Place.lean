/-!
Which value is at a place of a list that is made of others, and where a value is.
-/

namespace BinaryLambda

variable {α β γ : Type}

theorem getElem?_append_eq_some_iff {first second : List α} {place : Nat} {value : α} :
    (first ++ second)[place]? = some value ↔
      first[place]? = some value ∨
        ∃ later, place = first.length + later ∧ second[later]? = some value := by
  rcases Nat.lt_or_ge place first.length with before | behind
  · rw [List.getElem?_append_left before]
    constructor
    · exact .inl
    · rintro (found | ⟨later, rfl, _⟩)
      · exact found
      · omega
  · obtain ⟨later, rfl⟩ := Nat.exists_eq_add_of_le behind
    rw [List.getElem?_append_right behind, Nat.add_sub_cancel_left,
      List.getElem?_eq_none behind]
    constructor
    · exact fun found => .inr ⟨later, rfl, found⟩
    · rintro (⟨⟨⟩⟩ | ⟨other, same, found⟩)
      rw [Nat.add_left_cancel same]
      exact found

theorem getElem?_flatMap_range_eq_some_iff {blocks : Nat → List α} {limit place : Nat} {value : α} :
    ((List.range limit).flatMap blocks)[place]? = some value ↔
      ∃ block < limit, ∃ inner, place = ((List.range block).flatMap blocks).length + inner ∧
        (blocks block)[inner]? = some value := by
  induction limit with
  | zero => simp
  | succ limit inductionHypothesis =>
      rw [List.range_succ, List.flatMap_append, List.flatMap_singleton,
        getElem?_append_eq_some_iff, inductionHypothesis]
      constructor
      · rintro (⟨block, blockLt, found⟩ | ⟨inner, place_eq, found⟩)
        · exact ⟨block, by omega, found⟩
        · exact ⟨limit, by omega, inner, place_eq, found⟩
      · rintro ⟨block, blockLt, inner, place_eq, found⟩
        rcases Nat.lt_succ_iff_lt_or_eq.mp blockLt with earlier | rfl
        · exact .inl ⟨block, earlier, inner, place_eq, found⟩
        · exact .inr ⟨inner, place_eq, found⟩

theorem getElem?_flatMap_map_eq_some_iff {firsts : List α} {seconds : List β} {pair : α → β → γ}
    {place : Nat} {value : γ} :
    (firsts.flatMap fun first => seconds.map (pair first))[place]? = some value ↔
      ∃ outer first inner second, firsts[outer]? = some first ∧ seconds[inner]? = some second ∧
        place = outer * seconds.length + inner ∧ pair first second = value := by
  induction firsts generalizing place with
  | nil => simp
  | cons head firsts inductionHypothesis =>
      rw [List.flatMap_cons, getElem?_append_eq_some_iff, List.length_map]
      simp only [inductionHypothesis, List.getElem?_map, Option.map_eq_some_iff]
      constructor
      · rintro (⟨second, found, same⟩ | ⟨_, rfl, outer, first, inner, second, foundFirst,
          foundSecond, rfl, same⟩)
        · exact ⟨0, head, place, second, rfl, found, by simp, same⟩
        · exact ⟨outer + 1, first, inner, second, foundFirst, foundSecond, by
            rw [Nat.succ_mul]
            omega, same⟩
      · rintro ⟨outer, first, inner, second, foundFirst, foundSecond, rfl, same⟩
        cases outer with
        | zero =>
            cases foundFirst
            exact .inl ⟨second, by simpa using foundSecond, same⟩
        | succ outer =>
            refine .inr ⟨outer * seconds.length + inner, ?_, outer, first, inner, second,
              foundFirst, foundSecond, rfl, same⟩
            rw [Nat.succ_mul]
            omega

end BinaryLambda
