import BinaryLambda.Proofs.Rank.Place
import BinaryLambda.Proofs.Term.Listing

/-!
The rank of a term is its place in the list of its class, from 1.

`HasRank` says what rank a term has in a class, without any table. The ranks of a
variable, an abstraction and an application come from those of their parts
(`hasRank_var_iff`, `hasRank_lam_iff`, `hasRank_app_iff`): these three cases carry
whatever is proved about ranking and unranking.
-/

namespace BinaryLambda

open Finset Term

variable {bound : Int}

structure HasRank (bound : Int) (size rank : Nat) (term : Term) : Prop where
  one_le : 1 ≤ rank
  getElem?_eq : (classTerms bound size)[rank - 1]? = some term

theorem HasRank.le {size rank : Nat} {term : Term} (ranked : HasRank bound size rank term) :
    rank ≤ classSize bound size := by
  have inside := (List.getElem?_eq_some_iff.mp ranked.getElem?_eq).1
  have := ranked.one_le
  rw [length_classTerms] at inside
  omega

theorem HasRank.inClass {size rank : Nat} {term : Term} (ranked : HasRank bound size rank term) :
    term.InClass bound size :=
  mem_classTerms.mp (List.mem_of_getElem? ranked.getElem?_eq)

theorem HasRank.two_le {size rank : Nat} {term : Term} (ranked : HasRank bound size rank term) :
    2 ≤ size := by
  have := ranked.inClass.two_le
  omega

theorem exists_hasRank_of_le {size rank : Nat} (oneLe : 1 ≤ rank)
    (le : rank ≤ classSize bound size) : ∃ term, HasRank bound size rank term := by
  rw [← length_classTerms] at le
  exact ⟨_, oneLe, List.getElem?_eq_getElem (by omega)⟩

theorem exists_hasRank_of_inClass {size : Nat} {term : Term} (inClass : term.InClass bound size) :
    ∃ rank, HasRank bound size rank term := by
  obtain ⟨place, found⟩ := List.getElem?_of_mem (mem_classTerms.mpr inClass)
  exact ⟨place + 1, by omega, found⟩

/-- How many applications with parts of `parts` bits together have a function of fewer
than `limit` bits. -/
def applicationsBelow (bound : Int) (parts limit : Nat) : Nat :=
  ∑ func ∈ range limit, classSize bound func * classSize bound (parts - func)

theorem applicationsBelow_succ (bound : Int) (parts limit : Nat) :
    applicationsBelow bound parts (limit + 1) = applicationsBelow bound parts limit +
      classSize bound limit * classSize bound (parts - limit) :=
  sum_range_succ _ limit

theorem applicationsBelow_mono {parts limit larger : Nat} (le : limit ≤ larger) :
    applicationsBelow bound parts limit ≤ applicationsBelow bound parts larger :=
  sum_le_sum_of_subset (range_subset_range.mpr le)

theorem length_smallApplications_eq (bound : Int) (parts limit : Nat) :
    (smallApplications bound parts limit).length = applicationsBelow bound parts limit := by
  simp only [length_smallApplications, length_classTerms, applicationsBelow]

/-- Where a term of a class is: among the abstractions, among the applications, or last. -/
theorem getElem?_classTerms_eq_some_iff {body place : Nat} {term : Term} :
    (classTerms bound (body + 2))[place]? = some term ↔
      (∃ inner, (classTerms (bound + 1) body)[place]? = some inner ∧ lam inner = term) ∨
      (∃ later, place = classSize (bound + 1) body + later ∧
        (smallApplications bound body (body + 1))[later]? = some term) ∨
      (body + 1 ≤ bound ∧ place + 1 = classSize bound (body + 2) ∧ var (body + 1) = term) := by
  have total := classSize_add_two bound body
  have small := length_smallApplications_eq bound body (body + 1)
  change _ = convolution (classSize bound) body at small
  rw [classTerms_add_two, getElem?_append_eq_some_iff, getElem?_append_eq_some_iff, or_assoc,
    List.length_append, List.length_map, length_classTerms, small]
  refine or_congr ?_ (or_congr Iff.rfl ?_)
  · rw [List.getElem?_map, Option.map_eq_some_iff]
  · simp only [List.getElem?_replicate, Option.ite_none_right_eq_some, Option.some.injEq]
    rw [variableCount] at total ⊢
    constructor
    · rintro ⟨later, rfl, inside, same⟩
      split at inside
      · next admitted =>
          rw [if_pos admitted] at total
          exact ⟨by omega, by omega, same⟩
      · omega
    · rintro ⟨admitted, place_eq, same⟩
      rw [if_pos (by omega)] at total ⊢
      exact ⟨0, by omega, by omega, same⟩

theorem hasRank_var_iff {size rank index : Nat} :
    HasRank bound size rank (var index) ↔
      (var index).InClass bound size ∧ rank = classSize bound size := by
  constructor
  · intro ranked
    have inClass := ranked.inClass
    obtain ⟨body, rfl⟩ := Nat.exists_eq_add_of_le' ranked.two_le
    rcases getElem?_classTerms_eq_some_iff.mp ranked.getElem?_eq with
      ⟨_, _, ⟨⟩⟩ | ⟨_, _, found⟩ | ⟨_, place_eq, _⟩
    · simpa using List.mem_of_getElem? found
    · have := ranked.one_le
      exact ⟨inClass, by omega⟩
  · rintro ⟨inClass, rfl⟩
    obtain ⟨oneLe, rfl, le⟩ := inClass_var_iff.mp inClass
    obtain ⟨body, rfl⟩ := Nat.exists_eq_add_of_le' oneLe
    have pos : 0 < classSize bound (body + 2) := by
      rw [← length_classTerms]
      exact List.length_pos_of_mem (mem_classTerms.mpr inClass)
    exact ⟨pos, getElem?_classTerms_eq_some_iff.mpr
      (.inr (.inr ⟨le, Nat.sub_add_cancel pos, rfl⟩))⟩

theorem hasRank_lam_iff {body rank : Nat} {inner : Term} :
    HasRank bound (body + 2) rank (lam inner) ↔ HasRank (bound + 1) body rank inner := by
  constructor
  · rintro ⟨oneLe, found⟩
    refine ⟨oneLe, ?_⟩
    rcases getElem?_classTerms_eq_some_iff.mp found with
      ⟨_, found, ⟨⟩⟩ | ⟨_, _, found⟩ | ⟨_, _, ⟨⟩⟩
    · exact found
    · simpa using List.mem_of_getElem? found
  · rintro ⟨oneLe, found⟩
    exact ⟨oneLe, getElem?_classTerms_eq_some_iff.mpr (.inl ⟨inner, found, rfl⟩)⟩

theorem getElem?_smallApplications_eq_some_iff {parts limit place : Nat} {func arg : Term} :
    (smallApplications bound parts limit)[place]? = some (app func arg) ↔
      ∃ funcSize < limit, ∃ funcPlace argPlace,
        (classTerms bound funcSize)[funcPlace]? = some func ∧
        (classTerms bound (parts - funcSize))[argPlace]? = some arg ∧
        place = applicationsBelow bound parts funcSize +
          (funcPlace * classSize bound (parts - funcSize) + argPlace) := by
  rw [smallApplications, getElem?_flatMap_range_eq_some_iff]
  refine exists_congr fun funcSize => and_congr_right fun funcSizeLt => ?_
  rw [← smallApplications, length_smallApplications_eq]
  simp only [applications, getElem?_flatMap_map_eq_some_iff, length_classTerms]
  constructor
  · rintro ⟨_, rfl, funcPlace, _, argPlace, _, foundFunc, foundArg, rfl, ⟨⟩⟩
    exact ⟨funcPlace, argPlace, foundFunc, foundArg, rfl⟩
  · rintro ⟨funcPlace, argPlace, foundFunc, foundArg, rfl⟩
    exact ⟨_, rfl, funcPlace, func, argPlace, arg, foundFunc, foundArg, rfl, rfl⟩

theorem hasRank_app_iff {parts rank : Nat} {func arg : Term} :
    HasRank bound (parts + 2) rank (app func arg) ↔
      ∃ funcSize ≤ parts, ∃ funcRank argRank, HasRank bound funcSize funcRank func ∧
        HasRank bound (parts - funcSize) argRank arg ∧
        rank = classSize (bound + 1) parts + applicationsBelow bound parts funcSize +
          (funcRank - 1) * classSize bound (parts - funcSize) + argRank := by
  constructor
  · rintro ⟨oneLe, found⟩
    rcases getElem?_classTerms_eq_some_iff.mp found with
      ⟨_, _, ⟨⟩⟩ | ⟨later, rank_eq, found⟩ | ⟨_, _, ⟨⟩⟩
    obtain ⟨funcSize, funcSizeLt, funcPlace, argPlace, foundFunc, foundArg, rfl⟩ :=
      getElem?_smallApplications_eq_some_iff.mp found
    refine ⟨funcSize, by omega, funcPlace + 1, argPlace + 1, ⟨by omega, foundFunc⟩,
      ⟨by omega, foundArg⟩, ?_⟩
    rw [Nat.add_sub_cancel]
    omega
  · rintro ⟨funcSize, funcSizeLe, funcRank, argRank, funcRanked, argRanked, rfl⟩
    have argOneLe := argRanked.one_le
    refine ⟨by omega, getElem?_classTerms_eq_some_iff.mpr (.inr (.inl ?_))⟩
    refine ⟨_, ?_, getElem?_smallApplications_eq_some_iff.mpr ⟨funcSize, by omega, funcRank - 1,
      argRank - 1, funcRanked.getElem?_eq, argRanked.getElem?_eq, rfl⟩⟩
    omega

theorem HasRank.lt_of_ne_var {body rank : Nat} {term : Term}
    (ranked : HasRank bound (body + 2) rank term) (admitted : body + 1 ≤ bound)
    (ne : var (body + 1) ≠ term) : rank < classSize bound (body + 2) := by
  have oneLe := ranked.one_le
  have total := classSize_add_two bound body
  have small := length_smallApplications_eq bound body (body + 1)
  change _ = convolution (classSize bound) body at small
  rw [variableCount, if_pos (by omega)] at total
  rcases getElem?_classTerms_eq_some_iff.mp ranked.getElem?_eq with
    ⟨_, found, _⟩ | ⟨later, rank_eq, found⟩ | ⟨_, _, same⟩
  · have inside := (List.getElem?_eq_some_iff.mp found).1
    rw [length_classTerms] at inside
    omega
  · have inside := (List.getElem?_eq_some_iff.mp found).1
    omega
  · exact absurd same ne

end BinaryLambda
