import Mathlib.Data.List.Nodup
import TreeWalk.Machine

/-!
# Tables of distances

What is filed under a number after a machine takes up some distances, or drops
those of some numbers, and tables that have the same entries under other
numbers.
-/

namespace TreeWalk
namespace Machine

/-- Entries with distinct keys, inserted one by one, are found before those of the table.
-/
theorem getElem?_foldl_insert
    {entries : List (Nat × Nat)}
    (distinct : entries.Pairwise fun a b => ¬ compare a.1 b.1 = .eq)
    (table : Distances)
    (id : Nat) :
    (entries.foldl (fun table entry => table.insert entry.1 entry.2) table)[id]? =
      ((entries.find? (·.1 == id)).map (·.2)).or table[id]? := by
  induction entries generalizing table with
  | nil => rfl
  | cons first rest inductionHypothesis =>
    rw [List.pairwise_cons] at distinct
    rw [List.foldl_cons, inductionHypothesis distinct.2, List.find?_cons,
      Std.TreeMap.getElem?_insert]
    by_cases same : first.1 = id
    · have absent : rest.find? (·.1 == id) = none := by
        rw [List.find?_eq_none]
        intro entry member isId
        refine distinct.1 entry member ?_
        rw [Nat.compare_eq_eq, same]
        exact (eq_of_beq isId).symm
      simp [same, absent]
    · simp [same, beq_false_of_ne same]

/-- A noted distance takes the place of one filed before. -/
theorem getElem?_noteDistances
    (machine : Machine)
    (distances : Distances)
    (id : Nat) :
    (machine.noteDistances distances).distances[id]? =
      distances[id]?.or machine.distances[id]? := by
  have found : (distances.toList.find? (·.1 == id)).map (·.2) = distances[id]? := by
    cases isFound : distances.toList.find? (·.1 == id) with
    | none =>
      cases filed : distances[id]? with
      | none => rfl
      | some distance =>
        rw [List.find?_eq_none] at isFound
        have member := Std.TreeMap.mem_toList_iff_getElem?_eq_some.mpr filed
        exact absurd (beq_self_eq_true id) (isFound _ member)
    | some entry =>
      have member := List.mem_of_find?_eq_some isFound
      have isId := List.find?_some isFound
      obtain ⟨key, distance⟩ := entry
      rw [beq_iff_eq] at isId
      subst isId
      exact (Std.TreeMap.mem_toList_iff_getElem?_eq_some.mp member).symm
  rw [noteDistances]
  dsimp only
  rw [Std.TreeMap.foldl_eq_foldl_toList,
    getElem?_foldl_insert Std.TreeMap.distinct_keys_toList, found]

/-- Nothing is filed any more under a dropped number. -/
theorem getElem?_forgetDistances
    (machine : Machine)
    (ids : List Nat)
    (id : Nat) :
    (machine.forgetDistances ids).distances[id]? =
      if id ∈ ids then none else machine.distances[id]? := by
  rw [forgetDistances]
  dsimp only
  generalize machine.distances = table
  induction ids generalizing table with
  | nil => simp
  | cons first rest inductionHypothesis =>
    rw [List.foldl_cons, inductionHypothesis, Std.TreeMap.getElem?_erase]
    by_cases same : first = id
    · simp [same]
    · simp [same, Ne.symm same]

end Machine

namespace Distances

/-- A table has the entries of another one under other numbers, and no more. -/
structure Renumbered (number : Nat -> Nat) (table other : Distances) : Prop where
  filed : ∀ id, other[number id]? = table[id]?
  unfiled : ∀ id, (∀ before, number before ≠ id) -> other[id]? = none

variable {number : Nat -> Nat} {table other : Distances}

theorem renumbered_empty (number : Nat -> Nat) : Renumbered number ∅ ∅ :=
  ⟨fun _ => by rw [Std.TreeMap.getElem?_emptyc, Std.TreeMap.getElem?_emptyc],
    fun _ _ => Std.TreeMap.getElem?_emptyc⟩

section Injective

variable (injective : Function.Injective number)

include injective

/-- A table and its renumbering stay so when both file the same distance. -/
theorem Renumbered.insert
    (renumbered : Renumbered number table other)
    (id distance : Nat) :
    Renumbered number (table.insert id distance) (other.insert (number id) distance) := by
  refine ⟨fun key => ?_, fun key outside => ?_⟩
  · simp only [Std.TreeMap.getElem?_insert, Nat.compare_eq_eq, injective.eq_iff, renumbered.filed]
  · simp only [Std.TreeMap.getElem?_insert, Nat.compare_eq_eq]
    rw [if_neg (outside id)]
    exact renumbered.unfiled key outside

/-- A renumbered table has as many entries. -/
theorem Renumbered.size_eq (renumbered : Renumbered number table other) :
    other.size = table.size := by
  have distinct : (table.keys.map number).Nodup :=
    (List.nodup_map_iff injective).mpr Std.TreeMap.nodup_keys
  have sameKeys : other.keys.Perm (table.keys.map number) := by
    rw [List.perm_ext_iff_of_nodup Std.TreeMap.nodup_keys distinct]
    intro key
    rw [Std.TreeMap.mem_keys, Std.TreeMap.mem_iff_isSome_getElem?, List.mem_map]
    constructor
    · intro isFiled
      by_cases inside : ∃ id, number id = key
      · obtain ⟨id, rfl⟩ := inside
        rw [renumbered.filed, ← Std.TreeMap.mem_iff_isSome_getElem?,
          ← Std.TreeMap.mem_keys] at isFiled
        exact ⟨id, isFiled, rfl⟩
      · rw [renumbered.unfiled key fun id same => inside ⟨id, same⟩] at isFiled
        cases isFiled
    · rintro ⟨id, isKey, rfl⟩
      rw [renumbered.filed, ← Std.TreeMap.mem_iff_isSome_getElem?, ← Std.TreeMap.mem_keys]
      exact isKey
  rw [← Std.TreeMap.length_keys, ← Std.TreeMap.length_keys, sameKeys.length_eq, List.length_map]

/-- Only the numbers under which something is filed matter. -/
theorem Renumbered.congr
    {before : Nat -> Nat}
    (renumbered : Renumbered before table other)
    (same : ∀ id, table[id]? ≠ none -> number id = before id) :
    Renumbered number table other := by
  refine ⟨fun id => ?_, fun key outside => ?_⟩
  · by_cases isFiled : table[id]? = none
    · rw [isFiled]
      by_cases inside : ∃ old, before old = number id
      · obtain ⟨old, isOld⟩ := inside
        rw [← isOld, renumbered.filed]
        by_cases oldFiled : table[old]? = none
        · exact oldFiled
        · rw [← same old oldFiled] at isOld
          rw [injective isOld, isFiled]
      · exact renumbered.unfiled _ fun old isOld => inside ⟨old, isOld⟩
    · rw [same id isFiled]
      exact renumbered.filed id
  · by_cases inside : ∃ old, before old = key
    · obtain ⟨old, rfl⟩ := inside
      rw [renumbered.filed]
      by_contra oldFiled
      exact outside old (same old oldFiled)
    · exact renumbered.unfiled key fun old isOld => inside ⟨old, isOld⟩

/-- Forgetting ids and their renumberings. -/
theorem Renumbered.forget
    {machine otherMachine : Machine}
    (renumbered : Renumbered number machine.distances otherMachine.distances)
    (ids : List Nat) :
    Renumbered number (machine.forgetDistances ids).distances
      (otherMachine.forgetDistances (ids.map number)).distances := by
  refine ⟨fun id => ?_, fun key outside => ?_⟩
  · rw [Machine.getElem?_forgetDistances, Machine.getElem?_forgetDistances, renumbered.filed]
    simp only [List.mem_map_of_injective injective]
  · rw [Machine.getElem?_forgetDistances, renumbered.unfiled key outside, ite_self]

end Injective

/-- Noting a table and its renumbering. -/
theorem Renumbered.note
    {machine otherMachine : Machine}
    {noted otherNoted : Distances}
    (renumbered : Renumbered number machine.distances otherMachine.distances)
    (both : Renumbered number noted otherNoted) :
    Renumbered number (machine.noteDistances noted).distances
      (otherMachine.noteDistances otherNoted).distances := by
  refine ⟨fun id => ?_, fun key outside => ?_⟩
  · rw [Machine.getElem?_noteDistances, Machine.getElem?_noteDistances, renumbered.filed,
      both.filed]
  · rw [Machine.getElem?_noteDistances, renumbered.unfiled key outside, both.unfiled key outside]
    rfl

end Distances
end TreeWalk
