import TreeWalk.Proofs.Evaluation.SpareScope
import TreeWalk.Proofs.Heap.Chain

/-!
# Heaps with and without spare scopes

The scopes of two heaps are paired, apart from the spare scopes of the first one.
Chains of scopes are aligned when they go through paired scopes, and through at most one
spare scope.  The scopes of two heaps match when paired ones have the same bindings.
-/

namespace TreeWalk

/-- Scopes of two heaps, in pairs. -/
abbrev ScopePairs := List (ScopeRef × ScopeRef)

namespace Heap

/-- The scopes from two places outwards are paired, up to the globals, apart from a spare
scope in the place that the gap says. -/
inductive Aligned
    (setting : Setting)
    (pairs : ScopePairs)
    (heap other : Heap) : ScopeRef -> ScopeRef -> Gap -> Prop
  | outermost : Aligned setting pairs heap other setting.globals setting.globals .none
  | inside
      {place otherPlace outer otherOuter : ScopeRef}
      {gap : Gap}
      (paired : (place, otherPlace) ∈ pairs)
      (made : place.index < heap.scopes.size)
      (otherMade : otherPlace.index < other.scopes.size)
      (encloses : (heap.scope place).enclosing = some outer)
      (otherEncloses : (other.scope otherPlace).enclosing = some otherOuter)
      (around : Aligned setting pairs heap other outer otherOuter gap) :
      Aligned setting pairs heap other place otherPlace gap.enter
  | spare
      {place outer otherOuter : ScopeRef}
      (made : place.index < heap.scopes.size)
      (encloses : (heap.scope place).enclosing = some outer)
      (around : Aligned setting pairs heap other outer otherOuter .none) :
      Aligned setting pairs heap other place otherOuter (.beyond 0)

section Chains

variable
  {setting : Setting}
  {pairs later : ScopePairs}
  {heap other after otherAfter : Heap}
  {place otherPlace : ScopeRef}
  {gap : Gap}

/-- Chains stay aligned while the heaps grow. -/
theorem Aligned.grow
    (aligned : Aligned setting pairs heap other place otherPlace gap)
    (grows : Grows heap after)
    (otherGrows : Grows other otherAfter)
    (extended : pairs ⊆ later) :
    Aligned setting later after otherAfter place otherPlace gap := by
  induction aligned with
  | outermost => exact .outermost
  | inside paired made otherMade encloses otherEncloses _ inductionHypothesis =>
    exact .inside (extended paired) (Nat.lt_of_lt_of_le made grows.size)
      (Nat.lt_of_lt_of_le otherMade otherGrows.size) ((grows.enclosing _ made).trans encloses)
      ((otherGrows.enclosing _ otherMade).trans otherEncloses) inductionHypothesis
  | spare made encloses _ inductionHypothesis =>
    exact .spare (Nat.lt_of_lt_of_le made grows.size) ((grows.enclosing _ made).trans encloses)
      inductionHypothesis

/-- A distance that does not lead to the spare scope leads to paired scopes. -/
theorem Aligned.ancestor
    (aligned : Aligned setting pairs heap other place otherPlace gap)
    (globals : (setting.globals, setting.globals) ∈ pairs)
    (outermost : (heap.scope setting.globals).enclosing = none)
    (otherOutermost : (other.scope setting.globals).enclosing = none)
    {distance : Nat}
    (elsewhere : gap ≠ .beyond distance) :
    (heap.ancestor place distance, other.ancestor otherPlace (gap.shift distance)) ∈ pairs := by
  induction aligned generalizing distance with
  | outermost =>
    have atGlobals : ∀ {heap : Heap}, (heap.scope setting.globals).enclosing = none ->
        heap.ancestor setting.globals distance = setting.globals := by
      intro heap isOutermost
      cases distance with
      | zero => rfl
      | succ distance => rw [Heap.ancestor, isOutermost]
    rw [Gap.shift, atGlobals outermost, atGlobals otherOutermost]
    exact globals
  | @inside _ _ _ _ gap paired _ _ encloses otherEncloses _ inductionHypothesis =>
    cases distance with
    | zero =>
      rw [Gap.shift_enter_zero]
      exact paired
    | succ distance =>
      have further : gap ≠ .beyond distance := fun same => elsewhere (Gap.enter_eq_beyond.mpr same)
      rw [Gap.shift_enter_succ further, Heap.ancestor, Heap.ancestor, encloses, otherEncloses]
      exact inductionHypothesis further
  | spare _ encloses _ inductionHypothesis =>
    cases distance with
    | zero => exact absurd rfl elsewhere
    | succ distance =>
      rw [Heap.ancestor, encloses]
      exact inductionHypothesis (by simp)

end Chains

end Heap

/-- The scopes of two heaps match.  The globals are paired with themselves. -/
structure Heap.ScopesMatch
    (setting : Setting)
    (pairs : ScopePairs)
    (heap other : Heap) : Prop where
  made : ∀ pair ∈ pairs, pair.1.index < heap.scopes.size ∧ pair.2.index < other.scopes.size
  unique : ∀ pair ∈ pairs, ∀ second ∈ pairs, (pair.1 = second.1 ↔ pair.2 = second.2)
  bindings : ∀ pair ∈ pairs, (other.scope pair.2).bindings = (heap.scope pair.1).bindings
  globals : (setting.globals, setting.globals) ∈ pairs
  outermost : (heap.scope setting.globals).enclosing = none
  otherOutermost : (other.scope setting.globals).enclosing = none

namespace Heap

variable
  {setting : Setting}
  {pairs later : ScopePairs}
  {heap other after otherAfter : Heap}
  {place otherPlace : ScopeRef}
  {gap : Gap}

/-- From aligned scopes, the ancestor at a distance and the one at the shifted distance
are paired. -/
theorem ScopesMatch.ancestor
    (same : heap.ScopesMatch setting pairs other)
    (aligned : Aligned setting pairs heap other place otherPlace gap)
    {distance : Nat}
    (elsewhere : gap ≠ .beyond distance) :
    (heap.ancestor place distance, other.ancestor otherPlace (gap.shift distance)) ∈ pairs :=
  aligned.ancestor same.globals same.outermost same.otherOutermost elsewhere

/-- Places outside of a spare scope are paired. -/
theorem ScopesMatch.innermost
    (same : heap.ScopesMatch setting pairs other)
    (aligned : Aligned setting pairs heap other place otherPlace gap)
    (inner : gap ≠ .beyond 0) :
    (place, otherPlace) ∈ pairs := by
  have paired := same.ancestor aligned inner
  have noShift : gap.shift 0 = 0 := by
    cases gap with
    | none => rfl
    | beyond position =>
      rw [Gap.shift]
      split <;> rfl
  rwa [noShift] at paired

/-- Scopes match as long as they do not change. -/
theorem ScopesMatch.of_scopes_eq
    (same : heap.ScopesMatch setting pairs other)
    (scopes : after.scopes = heap.scopes)
    (otherScopes : otherAfter.scopes = other.scopes) :
    after.ScopesMatch setting pairs otherAfter := by
  obtain ⟨made, unique, bindings, globals, outermost, otherOutermost⟩ := same
  have sameScope : after.scope = heap.scope := by
    funext place
    rw [scope, scope, scopes]
  have sameOtherScope : otherAfter.scope = other.scope := by
    funext place
    rw [scope, scope, otherScopes]
  refine ⟨?_, unique, ?_, globals, ?_, ?_⟩
  · rwa [scopes, otherScopes]
  · rwa [sameScope, sameOtherScope]
  · rwa [sameScope]
  · rwa [sameOtherScope]

/-- A name is bound in paired scopes. -/
theorem ScopesMatch.define
    (same : heap.ScopesMatch setting pairs other)
    (paired : (place, otherPlace) ∈ pairs)
    (name : String)
    (value : Value) :
    (heap.define place name value).ScopesMatch setting pairs
      (other.define otherPlace name value) := by
  refine ⟨?_, same.unique, ?_, same.globals, ?_, ?_⟩
  · rw [size_define, size_define]
    exact same.made
  · intro pair member
    by_cases isPlace : pair.1 = place
    · have isOtherPlace : pair.2 = otherPlace := (same.unique _ member _ paired).mp isPlace
      have made := same.made _ paired
      rw [isPlace, isOtherPlace, bindings_define_self _ _ _ _ made.1,
        bindings_define_self _ _ _ _ made.2, same.bindings _ paired]
    · have isNotOtherPlace : pair.2 ≠ otherPlace := fun isOtherPlace =>
        isPlace ((same.unique _ member _ paired).mpr isOtherPlace)
      rw [scope_define_of_ne _ _ _ isPlace, scope_define_of_ne _ _ _ isNotOtherPlace]
      exact same.bindings _ member
  · rw [enclosing_define]
    exact same.outermost
  · rw [enclosing_define]
    exact same.otherOutermost

/-- The pairs after a scope has been made on each of two heaps. -/
def newPair (heap other : Heap) (pairs : ScopePairs) : ScopePairs :=
  (⟨heap.scopes.size⟩, ⟨other.scopes.size⟩) :: pairs

/-- Pairs are only added. -/
theorem subset_newPair (heap other : Heap) (pairs : ScopePairs) :
    pairs ⊆ newPair heap other pairs :=
  List.subset_cons_self _ pairs

/-- Scopes with the same bindings are made and paired. -/
theorem ScopesMatch.newScope
    (same : heap.ScopesMatch setting pairs other)
    (enclosing otherEnclosing : Option ScopeRef)
    (bindings : Bindings Value) :
    (heap.newScope enclosing bindings).2.ScopesMatch setting (newPair heap other pairs)
      (other.newScope otherEnclosing bindings).2 := by
  refine ⟨?_, ?_, ?_, subset_newPair heap other pairs same.globals, ?_, ?_⟩
  · intro pair member
    rcases List.mem_cons.mp member with rfl | old
    · simp [Heap.newScope]
    · have made := same.made _ old
      simp only [Heap.newScope, Array.size_push]
      omega
  · have apart : ∀ pair ∈ pairs, pair.1 ≠ ⟨heap.scopes.size⟩ ∧ pair.2 ≠ ⟨other.scopes.size⟩ := by
      intro pair old
      have made := same.made _ old
      constructor
      · intro isNew
        rw [isNew] at made
        exact Nat.lt_irrefl _ made.1
      · intro isNew
        rw [isNew] at made
        exact Nat.lt_irrefl _ made.2
    intro pair member second secondMember
    rcases List.mem_cons.mp member with rfl | old
    · rcases List.mem_cons.mp secondMember with rfl | secondOld
      · simp
      · have different := apart _ secondOld
        exact ⟨fun equal => absurd equal.symm different.1,
          fun equal => absurd equal.symm different.2⟩
    · rcases List.mem_cons.mp secondMember with rfl | secondOld
      · have different := apart _ old
        exact ⟨fun equal => absurd equal different.1, fun equal => absurd equal different.2⟩
      · exact same.unique _ old _ secondOld
  · intro pair member
    rcases List.mem_cons.mp member with rfl | old
    · exact (congrArg Scope.bindings (scope_newScope_self other otherEnclosing bindings)).trans
        (congrArg Scope.bindings (scope_newScope_self heap enclosing bindings)).symm
    · have made := same.made _ old
      rw [scope_newScope_of_lt _ _ _ made.1, scope_newScope_of_lt _ _ _ made.2]
      exact same.bindings _ old
  · rw [scope_newScope_of_lt _ _ _ (same.made _ same.globals).1]
    exact same.outermost
  · rw [scope_newScope_of_lt _ _ _ (same.made _ same.globals).2]
    exact same.otherOutermost

/-- New scopes inside of aligned ones are aligned. -/
theorem aligned_newScope
    (aligned : Aligned setting pairs heap other place otherPlace gap)
    (bindings : Bindings Value) :
    Aligned setting (newPair heap other pairs) (heap.newScope (some place) bindings).2
      (other.newScope (some otherPlace) bindings).2 (heap.newScope (some place) bindings).1
      (other.newScope (some otherPlace) bindings).1 gap.enter := by
  refine .inside List.mem_cons_self ?_ ?_ ?_ ?_ (aligned.grow (grows_newScope _ _ _)
    (grows_newScope _ _ _) (subset_newPair heap other pairs))
  · simp [newScope]
  · simp [newScope]
  · rw [scope_newScope_self]
  · rw [scope_newScope_self]

/-- A spare scope is made on one of the heaps. -/
theorem ScopesMatch.spareScope
    (same : heap.ScopesMatch setting pairs other)
    (enclosing : Option ScopeRef) :
    (heap.newScope enclosing .empty).2.ScopesMatch setting pairs other := by
  refine ⟨?_, same.unique, ?_, same.globals, ?_, same.otherOutermost⟩
  · intro pair member
    have made := same.made _ member
    simp only [Heap.newScope, Array.size_push]
    omega
  · intro pair member
    rw [scope_newScope_of_lt _ _ _ (same.made _ member).1]
    exact same.bindings _ member
  · rw [scope_newScope_of_lt _ _ _ (same.made _ same.globals).1]
    exact same.outermost

/-- What lies in a spare scope is aligned with what lies around it. -/
theorem aligned_spareScope
    (aligned : Aligned setting pairs heap other place otherPlace .none) :
    Aligned setting pairs (heap.newScope (some place) .empty).2 other
      (heap.newScope (some place) .empty).1 otherPlace (.beyond 0) := by
  refine .spare ?_ ?_ (aligned.grow (grows_newScope _ _ _) (.refl other) (List.Subset.refl pairs))
  · simp [newScope]
  · rw [scope_newScope_self]

end Heap

end TreeWalk
