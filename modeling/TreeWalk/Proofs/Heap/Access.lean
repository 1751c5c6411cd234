import TreeWalk.Evaluation.Step
import TreeWalk.Proofs.Heap.Chain

/-!
# Access by name and by distance

A variable is found by its name, along the chain of a scope, or by its distance from
the scope.  Main statement: whatever has been done to the scopes of a heap, every chain
comes to an end, a name means the binding at the least distance at which there is one,
and a change through either kind of access changes a single binding, which is seen
through exactly those scopes that have the changed one on their chains.
-/

namespace TreeWalk

/-- What can be done to the scopes of a heap. -/
inductive ScopeStep where
  | make
  | makeInside (enclosing : ScopeRef)
  | define (place : ScopeRef) (name : String) (value : Value)
  | assign (place : ScopeRef) (name : String) (value : Value)
  | assignAt (place : ScopeRef) (distance : Nat) (name : String) (value : Value)

namespace ScopeStep

/-- The scope to which something is done, if it is not a new one on its own. -/
def place? : ScopeStep -> Option ScopeRef
  | make => none
  | makeInside enclosing => some enclosing
  | define place _ _ => some place
  | assign place _ _ => some place
  | assignAt place _ _ _ => some place

/-- The heap after a step.  An assignment that fails leaves it as it is. -/
def perform (heap : Heap) : ScopeStep -> Heap
  | make => (heap.newScope none .empty).2
  | makeInside enclosing => (heap.newScope (some enclosing) .empty).2
  | define place name value => heap.define place name value
  | assign place name value => (heap.assign? place name value).getD heap
  | assignAt place distance name value => heap.assignAt place distance name value

end ScopeStep

namespace Heap

/-- There is a scope at a place. -/
def HasScope (heap : Heap) (place : ScopeRef) : Prop :=
  place.index < heap.scopes.size

instance (heap : Heap) (place : ScopeRef) : Decidable (heap.HasScope place) :=
  inferInstanceAs (Decidable (_ < _))

/-- Steps lead from one heap to another, each of them done to a scope that there
is. -/
inductive Performed : Heap -> List ScopeStep -> Heap -> Prop
  | none {heap : Heap} : Performed heap [] heap
  | step
      {heap after : Heap}
      {first : ScopeStep}
      {rest : List ScopeStep}
      (possible : ∀ place ∈ first.place?, heap.HasScope place)
      (others : Performed (first.perform heap) rest after) :
      Performed heap (first :: rest) after

/-- Every scope was made after the one around it. -/
def Layered (heap : Heap) : Prop :=
  ∀ place outer : ScopeRef, (heap.scope place).enclosing = some outer -> outer.index < place.index

/-- A heap without scopes is layered. -/
theorem layered_of_bare {heap : Heap} (bare : heap.scopes = #[]) : heap.Layered := by
  intro place outer encloses
  simp [scope, bare] at encloses

/-- A scope made inside one that exists keeps the heap layered. -/
theorem Layered.newScope
    {heap : Heap}
    (layered : heap.Layered)
    {enclosing : Option ScopeRef}
    (made : ∀ place ∈ enclosing, heap.HasScope place)
    (bindings : Bindings Value) :
    (heap.newScope enclosing bindings).2.Layered := by
  intro place outer encloses
  rcases Nat.lt_trichotomy place.index heap.scopes.size with earlier | new | beyond
  · rw [scope_newScope_of_lt heap enclosing bindings earlier] at encloses
    exact layered place outer encloses
  · have isNew : place = (heap.newScope enclosing bindings).1 := by
      cases place
      exact congrArg ScopeRef.mk new
    rw [isNew, scope_newScope_self] at encloses
    rw [new]
    exact made outer encloses
  · simp [Heap.newScope, scope, Array.getElem?_push, Nat.ne_of_gt beyond,
      Array.getElem?_eq_none (Nat.le_of_lt beyond)] at encloses

/-- Binding a name keeps the heap layered. -/
theorem Layered.define
    {heap : Heap}
    (layered : heap.Layered)
    (place : ScopeRef)
    (name : String)
    (value : Value) :
    (heap.define place name value).Layered := by
  intro inner outer encloses
  rw [enclosing_define] at encloses
  exact layered inner outer encloses

/-- No step puts a scope around an earlier one. -/
theorem Layered.perform
    {heap : Heap}
    (layered : heap.Layered)
    {step : ScopeStep}
    (possible : ∀ place ∈ step.place?, heap.HasScope place) :
    (step.perform heap).Layered := by
  cases step with
  | make => exact layered.newScope (by simp) .empty
  | makeInside enclosing => exact layered.newScope possible .empty
  | define place name value => exact layered.define place name value
  | assign place name value =>
    rw [ScopeStep.perform, assign?]
    cases heap.binder? place name with
    | none => exact layered
    | some binder => exact layered.define binder name value
  | assignAt place distance name value => exact layered.define _ name value

/-- Any sequence of scope steps keeps the heap layered. -/
theorem Performed.layered
    {start heap : Heap}
    {steps : List ScopeStep}
    (performed : Performed start steps heap)
    (layered : start.Layered) :
    heap.Layered := by
  induction performed with
  | none => exact layered
  | step possible others inductionHypothesis =>
    exact inductionHypothesis (layered.perform possible)

/-- Scopes, each with the next one around it, from a place outwards up to one that has
none around it. -/
inductive Links (heap : Heap) : ScopeRef -> List ScopeRef -> Prop
  | outermost
      {place : ScopeRef}
      (nothing : (heap.scope place).enclosing = none) :
      Links heap place [place]
  | inside
      {place outer : ScopeRef}
      {places : List ScopeRef}
      (encloses : (heap.scope place).enclosing = some outer)
      (around : Links heap outer places) :
      Links heap place (place :: places)

/-- The chain of a scope follows its links, given as many steps as the scope's place. -/
theorem Layered.links_chainUpTo
    {heap : Heap}
    (layered : heap.Layered)
    {count : Nat}
    {place : ScopeRef}
    (enough : place.index < count) :
    heap.Links place (heap.chainUpTo count place) := by
  induction count generalizing place with
  | zero => omega
  | succ count inductionHypothesis =>
    rw [chainUpTo]
    cases encloses : (heap.scope place).enclosing with
    | none => exact .outermost encloses
    | some outer =>
      have earlier := layered place outer encloses
      exact .inside encloses (inductionHypothesis (by omega))

/-- The chain of a scope follows its links to the outermost one. -/
theorem Layered.links_chain
    {heap : Heap}
    (layered : heap.Layered)
    (place : ScopeRef) :
    heap.Links place (heap.chain place) :=
  layered.links_chainUpTo (Nat.lt_succ_self place.index)

section Links

variable
  {heap : Heap}
  {place : ScopeRef}
  {places : List ScopeRef}

/-- A chain has at least the scope it starts from. -/
theorem Links.length_pos (links : heap.Links place places) : 0 < places.length := by
  cases links <;> simp

/-- The scope at a distance is the one in that position, or the last one. -/
theorem Links.getElem?_ancestor
    (links : heap.Links place places)
    (distance : Nat) :
    places[min distance (places.length - 1)]? = some (heap.ancestor place distance) := by
  induction links generalizing distance with
  | outermost nothing =>
    cases distance with
    | zero => rfl
    | succ distance => simp [ancestor, nothing]
  | @inside place outer places encloses around inductionHypothesis =>
    cases distance with
    | zero => simp [ancestor]
    | succ distance =>
      have positive := around.length_pos
      have position : min (distance + 1) (places.length + 1 - 1) =
          min distance (places.length - 1) + 1 := by omega
      rw [ancestor, encloses, ← inductionHypothesis distance, List.length_cons, position,
        List.getElem?_cons_succ]

end Links

/-- The scope at a distance is on the chain of a place and binds a name. -/
def BindsAt (heap : Heap) (place : ScopeRef) (distance : Nat) (name : String) : Prop :=
  distance < (heap.chain place).length ∧
    (heap.scope (heap.ancestor place distance)).bindings.contains name = true

instance (heap : Heap) (place : ScopeRef) (distance : Nat) (name : String) :
    Decidable (heap.BindsAt place distance name) :=
  inferInstanceAs (Decidable (_ ∧ _))

/-- The least distance at which a name is bound. -/
def BindsFirstAt (heap : Heap) (place : ScopeRef) (distance : Nat) (name : String) : Prop :=
  heap.BindsAt place distance name ∧ ∀ nearer < distance, ¬ heap.BindsAt place nearer name

section Names

variable
  {heap : Heap}
  {place : ScopeRef}
  {name : String}

/-- The scope at a distance is the ancestor at that distance. -/
theorem Layered.getElem_chain
    (layered : heap.Layered)
    {distance : Nat}
    (inside : distance < (heap.chain place).length) :
    (heap.chain place)[distance] = heap.ancestor place distance := by
  have found := (layered.links_chain place).getElem?_ancestor distance
  rw [Nat.min_eq_left (by omega)] at found
  exact (List.getElem?_eq_some_iff.mp found).2

/-- A name is found in the scope at the least distance at which it is bound. -/
theorem Layered.binder?_eq_some_iff
    (layered : heap.Layered)
    {binder : ScopeRef} :
    heap.binder? place name = some binder ↔
      ∃ distance, heap.BindsFirstAt place distance name ∧
        heap.ancestor place distance = binder := by
  rw [binder?, List.find?_eq_some_iff_getElem]
  constructor
  · rintro ⟨binds, distance, inside, isBinder, others⟩
    rw [layered.getElem_chain inside] at isBinder
    refine ⟨distance, ⟨⟨inside, isBinder ▸ binds⟩, fun nearer isNearer boundNearer => ?_⟩, isBinder⟩
    have unbound := others nearer isNearer
    rw [layered.getElem_chain boundNearer.1, boundNearer.2] at unbound
    cases unbound
  · rintro ⟨distance, ⟨⟨inside, binds⟩, others⟩, rfl⟩
    refine ⟨binds, distance, inside, layered.getElem_chain inside, fun nearer isNearer => ?_⟩
    have insideToo := Nat.lt_trans isNearer inside
    rw [layered.getElem_chain insideToo, Bool.not_eq_eq_eq_not, Bool.not_true]
    exact Bool.eq_false_iff.mpr fun bound => others nearer isNearer ⟨insideToo, bound⟩

/-- The search for a name ends at the least distance that binds it. -/
theorem Layered.binder?_of_bindsFirstAt
    (layered : heap.Layered)
    {distance : Nat}
    (first : heap.BindsFirstAt place distance name) :
    heap.binder? place name = some (heap.ancestor place distance) :=
  layered.binder?_eq_some_iff.mpr ⟨distance, first, rfl⟩

/-- The search for a name succeeds when some distance binds it. -/
theorem Layered.binder?_isSome_iff
    (layered : heap.Layered) :
    (heap.binder? place name).isSome = true ↔ ∃ distance, heap.BindsAt place distance name := by
  constructor
  · intro found
    obtain ⟨binder, isBinder⟩ := Option.isSome_iff_exists.mp found
    obtain ⟨distance, first, -⟩ := layered.binder?_eq_some_iff.mp isBinder
    exact ⟨distance, first.1⟩
  · rintro ⟨distance, inside, binds⟩
    rw [binder?, List.find?_isSome]
    refine ⟨_, List.getElem_mem inside, ?_⟩
    rw [layered.getElem_chain inside]
    exact binds

/-- A name means something exactly when a scope on the chain binds it. -/
theorem get?_isSome_eq (heap : Heap) (place : ScopeRef) (name : String) :
    (heap.get? place name).isSome = (heap.binder? place name).isSome := by
  rw [get?]
  cases found : heap.binder? place name with
  | none => rfl
  | some binder => exact contains_of_binder? found

/-- A name means what it is bound to at the least distance. -/
theorem Layered.get?_of_bindsFirstAt
    (layered : heap.Layered)
    {distance : Nat}
    (first : heap.BindsFirstAt place distance name) :
    heap.get? place name = some (heap.getAt place distance name) := by
  have binds := first.1.2
  rw [Bindings.contains] at binds
  obtain ⟨value, isBound⟩ := Option.isSome_iff_exists.mp binds
  rw [get?, layered.binder?_of_bindsFirstAt first, Option.bind_some, getAt, isBound]
  rfl

/-- The ancestors of a scope that exists do so too. -/
theorem Layered.hasScope_ancestor
    (layered : heap.Layered)
    (made : heap.HasScope place)
    (distance : Nat) :
    heap.HasScope (heap.ancestor place distance) := by
  induction distance generalizing place with
  | zero => exact made
  | succ distance inductionHypothesis =>
    rw [ancestor]
    cases encloses : (heap.scope place).enclosing with
    | none => exact made
    | some outer =>
      exact inductionHypothesis (Nat.lt_trans (layered place outer encloses) made)

end Names

/-! ## Changing a single binding -/

/-- A name that is bound in a scope is found there from a place: the scope is on the
chain of the place, and no scope further in binds the name. -/
def Reaches (heap : Heap) (place target : ScopeRef) (name : String) : Prop :=
  ∃ inner outer, heap.chain place = inner ++ target :: outer ∧
    ∀ scope ∈ inner, (heap.scope scope).bindings.contains name = false

/-- A scope that a name is found in is reached. -/
theorem reaches_of_binder?
    {heap : Heap}
    {place target : ScopeRef}
    {name : String}
    (found : heap.binder? place name = some target) :
    heap.Reaches place target name := by
  rw [binder?, List.find?_eq_some_iff_append] at found
  obtain ⟨-, inner, outer, isChain, unbound⟩ := found
  exact ⟨inner, outer, isChain, fun scope member => by simpa using unbound scope member⟩

/-- A heap differs from another one in the value of one name in one scope.  By its
distance the change is seen wherever that leads to the scope, and by its name from
exactly those places from which the scope is reached. -/
structure Sets
    (before : Heap)
    (target : ScopeRef)
    (name : String)
    (value : Value)
    (after : Heap) : Prop where
  scopes : after.scopes.size = before.scopes.size
  others : after = { before with scopes := after.scopes }
  enclosing : ∀ place : ScopeRef, (after.scope place).enclosing = (before.scope place).enclosing
  bindings : ∀ (place : ScopeRef) (other : String),
    (after.scope place).bindings.get? other =
      if place = target ∧ other = name then some value
      else (before.scope place).bindings.get? other
  byDistance : ∀ (place : ScopeRef) (distance : Nat) (other : String),
    after.getAt place distance other =
      if before.ancestor place distance = target ∧ other = name then value
      else before.getAt place distance other
  byName : ∀ place : ScopeRef, before.Reaches place target name ->
    after.get? place name = some value
  unseen : ∀ (place : ScopeRef) (other : String),
    ¬ (before.Reaches place target name ∧ other = name) ->
      after.get? place other = before.get? place other

section Define

variable
  {heap : Heap}
  {target : ScopeRef}
  (made : heap.HasScope target)
  (name : String)
  (value : Value)

/-- Binding a name changes no link, so no ancestor. -/
theorem ancestor_define (place : ScopeRef) (distance : Nat) :
    (heap.define target name value).ancestor place distance = heap.ancestor place distance := by
  induction distance generalizing place with
  | zero => rfl
  | succ distance inductionHypothesis =>
    rw [ancestor, ancestor, enclosing_define]
    cases (heap.scope place).enclosing with
    | none => rfl
    | some outer => exact inductionHypothesis outer

/-- Binding a name changes no link, so no chain. -/
theorem chain_define (place : ScopeRef) :
    (heap.define target name value).chain place = heap.chain place := by
  have upTo : ∀ (count : Nat) (place : ScopeRef),
      (heap.define target name value).chainUpTo count place = heap.chainUpTo count place := by
    intro count
    induction count with
    | zero => exact fun _ => rfl
    | succ count inductionHypothesis =>
      intro place
      rw [chainUpTo, chainUpTo, enclosing_define]
      cases (heap.scope place).enclosing with
      | none => rfl
      | some outer => exact congrArg (place :: ·) (inductionHypothesis outer)
  exact upTo _ place

include made

/-- Each scope's values behind a binding: the new one in its place, the others as before.
-/
theorem get?_bindings_define (place : ScopeRef) (other : String) :
    ((heap.define target name value).scope place).bindings.get? other =
      if place = target ∧ other = name then some value
      else (heap.scope place).bindings.get? other := by
  by_cases here : place = target
  · subst here
    rw [bindings_define_self heap place name value made, Bindings.get?_set]
    simp
  · rw [scope_define_of_ne heap name value here, if_neg fun both => here both.1]

/-- Each scope's names behind a binding. -/
theorem contains_define (place : ScopeRef) (other : String) :
    ((heap.define target name value).scope place).bindings.contains other =
      (decide (place = target ∧ other = name) || (heap.scope place).bindings.contains other) := by
  rw [Bindings.contains, Bindings.contains, get?_bindings_define made]
  by_cases here : place = target ∧ other = name <;> simp [here]

/-- Reads at a distance behind a binding. -/
theorem getAt_define (place : ScopeRef) (distance : Nat) (other : String) :
    (heap.define target name value).getAt place distance other =
      if heap.ancestor place distance = target ∧ other = name then value
      else heap.getAt place distance other := by
  rw [getAt, getAt, ancestor_define, get?_bindings_define made]
  split <;> rfl

/-- A scope from which the search ends at the bound place still finds the name there. -/
theorem binder?_define_of_reaches
    {place : ScopeRef}
    (reaches : heap.Reaches place target name) :
    (heap.define target name value).binder? place name = some target := by
  obtain ⟨inner, outer, isChain, unbound⟩ := reaches
  rw [binder?, chain_define, isChain]
  clear isChain
  induction inner with
  | nil => simp [contains_define made]
  | cons first rest inductionHypothesis =>
    rw [List.forall_mem_cons] at unbound
    rw [List.cons_append, List.find?_cons, contains_define made, unbound.1]
    by_cases here : first = target
    · simp [here]
    · simpa [here] using inductionHypothesis unbound.2

/-- A scope from which the search ends at the bound place reads the new value. -/
theorem get?_define_of_reaches
    {place : ScopeRef}
    (reaches : heap.Reaches place target name) :
    (heap.define target name value).get? place name = some value := by
  rw [get?, binder?_define_of_reaches made name value reaches, Option.bind_some,
    get?_bindings_define made]
  simp

/-- From a place from which the changed scope is not reached, a name is found where it
was found before. -/
theorem binder?_define_of_not_reaches
    {place : ScopeRef}
    {other : String}
    (unreached : ¬ (heap.Reaches place target name ∧ other = name)) :
    (heap.define target name value).binder? place other = heap.binder? place other := by
  by_cases same : other = name
  · subst same
    cases found : (heap.define target other value).binder? place other with
    | none =>
      rw [binder?, chain_define, List.find?_eq_none] at found
      refine (List.find?_eq_none.mpr fun scope member bound => ?_).symm
      refine found scope member ?_
      rw [contains_define made, bound, Bool.or_true]
    | some binder =>
      rw [binder?, chain_define, List.find?_eq_some_iff_append] at found
      obtain ⟨binds, inner, outer, isChain, unbound⟩ := found
      have stillUnbound : ∀ scope ∈ inner, (heap.scope scope).bindings.contains other = false := by
        intro scope member
        have notBound := unbound scope member
        rw [contains_define made] at notBound
        simp only [Bool.not_eq_eq_eq_not, Bool.not_true, Bool.or_eq_false_iff] at notBound
        exact notBound.2
      have notTarget : binder ≠ target := by
        rintro rfl
        exact unreached ⟨⟨inner, outer, isChain, stillUnbound⟩, rfl⟩
      rw [contains_define made] at binds
      symm
      refine List.find?_eq_some_iff_append.mpr
        ⟨?_, inner, outer, isChain, fun scope member => ?_⟩
      · simpa [notTarget] using binds
      · simpa using stillUnbound scope member
  · rw [binder?, binder?, chain_define]
    congr 1
    funext scope
    rw [contains_define made]
    simp [same]

/-- Any other read gives what it gave before. -/
theorem get?_define_of_not_reaches
    {place : ScopeRef}
    {other : String}
    (unreached : ¬ (heap.Reaches place target name ∧ other = name)) :
    (heap.define target name value).get? place other = heap.get? place other := by
  rw [get?, get?, binder?_define_of_not_reaches made name value unreached]
  cases found : heap.binder? place other with
  | none => rfl
  | some binder =>
    rw [Option.bind_some, Option.bind_some, get?_bindings_define made, if_neg]
    rintro ⟨rfl, rfl⟩
    exact unreached ⟨reaches_of_binder? found, rfl⟩

/-- Binding a name in a scope changes that binding alone. -/
theorem define_sets : heap.Sets target name value (heap.define target name value) where
  scopes := size_define heap target name value
  others := rfl
  enclosing := fun place => enclosing_define heap target place name value
  bindings := get?_bindings_define made name value
  byDistance := getAt_define made name value
  byName := fun _ => get?_define_of_reaches made name value
  unseen := fun _ _ => get?_define_of_not_reaches made name value

end Define

/-- Access through a place by name and by distance. -/
structure Access (heap : Heap) (place : ScopeRef) : Prop where
  chain_ends : heap.Links place (heap.chain place)
  ancestor_eq : ∀ distance,
    (heap.chain place)[min distance ((heap.chain place).length - 1)]? =
      some (heap.ancestor place distance)
  get_iff : ∀ name,
    (heap.get? place name).isSome = true ↔ ∃ distance, heap.BindsAt place distance name
  get_eq : ∀ name distance, heap.BindsFirstAt place distance name ->
    heap.get? place name = some (heap.getAt place distance name)
  assign_iff : ∀ name value,
    (heap.assign? place name value).isSome = true ↔ (heap.get? place name).isSome = true
  assign_sets : ∀ name value distance, heap.BindsFirstAt place distance name ->
    ∃ after, heap.assign? place name value = some after ∧
      heap.Sets (heap.ancestor place distance) name value after
  assign_fails : ∀ (name : Token) (value : Value) (machine : Machine), machine.heap = heap ->
    heap.get? place name.lexeme = none ->
      heap.assign? place name.lexeme value = none ∧
      Eval.assignFrom place name value machine =
        .error (.failure name.line (.undefinedVariable name.lexeme)) machine
  assignAt_sets : ∀ distance name value,
    heap.Sets (heap.ancestor place distance) name value
      (heap.assignAt place distance name value)

/-- On a layered heap, access by name and by distance agree at every scope that exists. -/
theorem Layered.access
    {heap : Heap}
    (layered : heap.Layered)
    {place : ScopeRef}
    (made : heap.HasScope place) :
    heap.Access place where
  chain_ends := layered.links_chain place
  ancestor_eq := (layered.links_chain place).getElem?_ancestor
  get_iff := by
    intro name
    rw [get?_isSome_eq, layered.binder?_isSome_iff]
  get_eq := fun _ _ first => layered.get?_of_bindsFirstAt first
  assign_iff := by
    intro name value
    rw [get?_isSome_eq, assign?, Option.isSome_map]
  assign_sets := by
    intro name value distance first
    refine ⟨_, ?_, define_sets (layered.hasScope_ancestor made distance) name value⟩
    rw [assign?, layered.binder?_of_bindsFirstAt first, Option.map_some]
  assign_fails := by
    rintro name value machine rfl missing
    have unbound : machine.heap.binder? place name.lexeme = none := by
      rw [← Option.not_isSome_iff_eq_none, ← get?_isSome_eq, missing]
      simp
    rw [Eval.assignFrom, assign?, unbound]
    exact ⟨rfl, rfl⟩
  assignAt_sets := fun distance name value =>
    define_sets (layered.hasScope_ancestor made distance) name value

/-- Access by name and by distance agree.  Let scopes be made and names be bound and
changed on a heap that had no scopes, in any order.  Then every chain ends; a name means
what it is bound to at the least distance at which a scope of the chain binds it;
assigning to it succeeds exactly when it means something, and changes that binding
alone; assigning to another name fails and changes nothing; and assigning at a distance
changes one binding in the scope there, which is the outermost one if the chain is
shorter. -/
theorem access_by_name_and_by_distance_agree
    {start heap : Heap}
    {steps : List ScopeStep}
    (bare : start.scopes = #[])
    (performed : Performed start steps heap)
    {place : ScopeRef}
    (made : heap.HasScope place) :
    heap.Access place :=
  (performed.layered (layered_of_bare bare)).access made

/-- A scope with two others inside of it, one of which binds a name of its own. -/
def sharedSteps : List ScopeStep :=
  [.make, .define ⟨0⟩ "n" (.boolean true), .makeInside ⟨0⟩, .makeInside ⟨0⟩,
    .define ⟨2⟩ "n" .null, .assign ⟨1⟩ "m" .null, .assignAt ⟨2⟩ 1 "n" (.boolean false)]

/-- Two scopes inside a shared one: an assignment from the first is read in it by name and
by distance. -/
theorem access_by_name_and_by_distance_agree_shared :
    ∃ heap, Performed {} sharedSteps heap ∧ heap.HasScope ⟨1⟩ ∧
      heap.get? ⟨1⟩ "n" = some (.boolean false) ∧ heap.get? ⟨1⟩ "n" = some (heap.getAt ⟨1⟩ 1 "n") ∧
      heap.get? ⟨2⟩ "n" = some .null := by
  let heap := sharedSteps.foldl ScopeStep.perform {}
  have made : heap.HasScope ⟨1⟩ := by decide
  have performed : Performed {} sharedSteps heap := by
    repeat refine .step (by decide) ?_
    exact .none
  have access := access_by_name_and_by_distance_agree rfl performed made
  refine ⟨heap, performed, made, by decide, access.get_eq "n" 1 ?_, by decide⟩
  exact ⟨⟨by decide, by decide⟩, by decide⟩

end Heap
end TreeWalk
