import TreeWalk.Proofs.Evaluation.Lockstep
import TreeWalk.Proofs.Grammar.Form
import TreeWalk.Proofs.Spelling
import TreeWalk.Proofs.Syntax.Functions

/-!
# Machines that are alike

Two machines are alike when one has run a program and the other has run it
spelled anew.  Their heaps have the same things at the same places.  The scopes
of one heap carry marks, which tell the scopes of chosen blocks and calls from
the others: a marked scope has its names exchanged on the other heap.  A function
on the other heap is spelled anew, in agreement with the marks of the scopes
around it.
-/

namespace TreeWalk

/-- What two runs have to do with each other: the names that are exchanged in
marked scopes, the distances on either machine, the number that each reference of
one run has in the other, and the ways in which lines may be moved, in any part of a
program and in a given function. -/
structure Likeness extends NamePair where
  before : Distances
  after : Distances
  number : Nat -> Nat
  lines : (Nat -> Nat) -> Prop
  moves : FunctionDecl -> (Nat -> Nat) -> Prop := fun _ _ => True
  keepsSelf : toNamePair.exchange selfName = selfName
  keepsSuperclass : toNamePair.exchange superclassName = superclassName

namespace Likeness

/-- The spelling of a part of a program fits in with the two runs, also for the
functions that the part declares, and the references of the part have the same
distances in both of them. -/
structure Admits
    (likeness : Likeness)
    (spelling : Spelling)
    (ids : List Nat)
    (functions : List FunctionDecl := []) : Prop where
  pair : spelling.toNamePair = likeness.toNamePair
  line : likeness.lines spelling.line
  number : spelling.number = likeness.number
  filed : ∀ id ∈ ids, spelling.distances[id]? = likeness.before[id]?
  same : ∀ id ∈ ids, likeness.after[likeness.number id]? = likeness.before[id]?
  moved : ∀ declaration ∈ functions, likeness.moves declaration spelling.line

/-- What fits in for a part of a program does so for a smaller part. -/
theorem Admits.part
    {likeness : Likeness}
    {spelling : Spelling}
    {ids others : List Nat}
    {functions fewer : List FunctionDecl}
    (admits : likeness.Admits spelling ids functions)
    (included : others ⊆ ids)
    (declared : fewer ⊆ functions) :
    likeness.Admits spelling others fewer :=
  ⟨admits.pair, admits.line, admits.number, fun id member => admits.filed id (included member),
    fun id member => admits.same id (included member),
    fun declaration member => admits.moved declaration (declared member)⟩

/-- What fits in for a part of a program does so for an expression in it. -/
theorem Admits.mono
    {likeness : Likeness}
    {spelling : Spelling}
    {ids others : List Nat}
    {functions : List FunctionDecl}
    (admits : likeness.Admits spelling ids functions)
    (included : others ⊆ ids) :
    likeness.Admits spelling others :=
  admits.part included (List.nil_subset functions)

/-- No line is moved. -/
def Exact (likeness : Likeness) : Prop :=
  ∀ line, likeness.lines line -> ∀ number, line number = number

end Likeness

namespace Heap

/-- The scopes from a place up to the globals have the given marks. -/
def Marked
    (heap : Heap)
    (globals : ScopeRef)
    (marks : List Bool)
    (place : ScopeRef)
    (chosen : List Bool) : Prop :=
  Chained heap globals (fun place mark => marks[place.index]? = some mark) place chosen

/-- The mark of a scope stays when more scopes are marked. -/
theorem mark_extended
    {marks later : List Bool}
    {index : Nat}
    {mark : Bool}
    (extended : marks <+: later)
    (marked : marks[index]? = some mark) :
    later[index]? = some mark := by
  obtain ⟨more, rfl⟩ := extended
  obtain ⟨inside, -⟩ := List.getElem?_eq_some_iff.mp marked
  rw [List.getElem?_append_left inside]
  exact marked

/-- A chain of scopes keeps its marks on every later heap. -/
theorem Marked.grow
    {before after : Heap}
    {globals place : ScopeRef}
    {marks later chosen : List Bool}
    (marked : before.Marked globals marks place chosen)
    (grows : Grows before after)
    (extended : marks <+: later) :
    after.Marked globals later place chosen :=
  Chained.grow marked grows fun _ _ _ => mark_extended extended

/-- The scope at a distance has the mark at that distance, and every scope beyond
is the global one. -/
theorem Marked.ancestor
    {heap : Heap}
    {globals place : ScopeRef}
    {marks chosen : List Bool}
    (marked : heap.Marked globals marks place chosen)
    (outermost : (heap.scope globals).enclosing = none)
    (unmarked : marks[globals.index]? = some false)
    (distance : Nat) :
    marks[(heap.ancestor place distance).index]? = some (chosen.getD distance false) := by
  rw [List.getD_eq_getElem?_getD]
  cases found : chosen[distance]? with
  | some mark => exact (Chained.ancestor marked found).1
  | none =>
    rw [Chained.ancestor_of_le marked outermost (List.getElem?_eq_none_iff.mp found)]
    exact unmarked

/-- The innermost scope has the first mark. -/
theorem Marked.innermost
    {heap : Heap}
    {globals place : ScopeRef}
    {marks chosen : List Bool}
    (marked : heap.Marked globals marks place chosen)
    (unmarked : marks[globals.index]? = some false) :
    marks[place.index]? = some (chosen.headD false) := by
  cases marked with
  | outermost => exact unmarked
  | inside made encloses earlier holds around => exact holds

/-- A new scope extends its parent's chain by its own mark. -/
theorem marked_newScope
    {heap : Heap}
    {globals place : ScopeRef}
    {marks chosen : List Bool}
    (marked : heap.Marked globals marks place chosen)
    (globalsMade : globals.index < heap.scopes.size)
    (size : marks.length = heap.scopes.size)
    (bindings : Bindings Value)
    (mark : Bool) :
    (heap.newScope (some place) bindings).2.Marked globals (marks ++ [mark])
      (heap.newScope (some place) bindings).1 (mark :: chosen) := by
  have earlier := Chained.made marked globalsMade
  refine .inside ?_ ?_ earlier ?_ (marked.grow (grows_newScope heap _ _) (List.prefix_append _ _))
  · simp [newScope]
  · rw [scope_newScope_self]
  · simp [newScope, ← size]

end Heap

/-! ## Functions and classes -/

/-- A function is spelled anew, in agreement with the marks of the scopes that it
remembers.  The first scopes around it may be still to come. -/
def Closure.Alike
    (likeness : Likeness)
    (heap : Heap)
    (globals : ScopeRef)
    (marks coming : List Bool)
    (closure other : Closure) : Prop :=
  closure.declaration.WellFormed Token.IsName ∧ ∃ spelling choice chosen,
    likeness.Admits spelling closure.declaration.ids closure.declaration.functions ∧
    other =
      ⟨closure.declaration.respell spelling choice (coming ++ chosen), closure.scope,
        closure.isInitializer⟩ ∧
    heap.Marked globals marks closure.scope chosen

/-- Methods of the same names are spelled anew.  The scope of the receiver is
still to come. -/
def Bindings.MethodsAlike
    (likeness : Likeness)
    (heap : Heap)
    (globals : ScopeRef)
    (marks : List Bool)
    (table other : Bindings Closure) : Prop :=
  ∀ name, Option.Rel (Closure.Alike likeness heap globals marks [false])
    (table.get? name) (other.get? name)

/-- A class has the same name and its methods are spelled anew. -/
structure Class.Alike
    (likeness : Likeness)
    (heap : Heap)
    (globals : ScopeRef)
    (marks : List Bool)
    (ofClass other : Class) : Prop where
  name : other.name = ofClass.name
  lineage : List.Forall₂ (Bindings.MethodsAlike likeness heap globals marks)
    ofClass.lineage other.lineage

/-- The heaps of two machines that are alike. -/
structure Heap.Alike
    (likeness : Likeness)
    (globals : ScopeRef)
    (marks : List Bool)
    (heap other : Heap) : Prop where
  marked : marks.length = heap.scopes.size
  size : other.scopes.size = heap.scopes.size
  scopes : ∀ (place : ScopeRef) (mark : Bool), marks[place.index]? = some mark ->
    other.scope place =
      ⟨(heap.scope place).bindings.rename (likeness.name mark), (heap.scope place).enclosing⟩
  natives : other.natives = heap.natives
  functionsSize : other.functions.size = heap.functions.size
  functions : ∀ place : FunctionRef,
    Option.Rel (Closure.Alike likeness heap globals marks []) (heap.function? place)
      (other.function? place)
  classesSize : other.classes.size = heap.classes.size
  classes : ∀ place : ClassRef,
    Option.Rel (Class.Alike likeness heap globals marks) (heap.class? place) (other.class? place)
  instances : other.instances = heap.instances

/-- The scopes of two heaps are alike: they have the same links, and those that are
marked have their names exchanged.  The global scope is not marked. -/
structure Heap.ScopesAlike
    (likeness : Likeness)
    (globals : ScopeRef)
    (marks : List Bool)
    (heap other : Heap) : Prop where
  marked : marks.length = heap.scopes.size
  size : other.scopes.size = heap.scopes.size
  scopes : ∀ (place : ScopeRef) (mark : Bool), marks[place.index]? = some mark ->
    other.scope place =
      ⟨(heap.scope place).bindings.rename (likeness.name mark), (heap.scope place).enclosing⟩
  unmarked : marks[globals.index]? = some false
  outermost : (heap.scope globals).enclosing = none

namespace Heap

variable
  {likeness : Likeness}
  {globals place : ScopeRef}
  {marks chosen : List Bool}
  {heap other : Heap}

/-- Alike heaps have the same links between scopes. -/
theorem ScopesAlike.enclosing
    (alike : heap.ScopesAlike likeness globals marks other)
    (place : ScopeRef) :
    (other.scope place).enclosing = (heap.scope place).enclosing := by
  cases mark : marks[place.index]? with
  | some mark' => rw [alike.scopes place mark' mark]
  | none =>
    have outside : heap.scopes.size ≤ place.index := by
      rw [← alike.marked]
      exact List.getElem?_eq_none_iff.mp mark
    have otherOutside : other.scopes.size ≤ place.index := alike.size ▸ outside
    simp [scope, Array.getD, Nat.not_lt.mpr outside, Nat.not_lt.mpr otherOutside]

/-- Alike heaps lead from a scope to the same ancestors. -/
theorem ScopesAlike.ancestor
    (alike : heap.ScopesAlike likeness globals marks other)
    (place : ScopeRef)
    (distance : Nat) :
    other.ancestor place distance = heap.ancestor place distance := by
  induction distance generalizing place with
  | zero => rfl
  | succ distance inductionHypothesis =>
    rw [Heap.ancestor, Heap.ancestor, alike.enclosing]
    cases (heap.scope place).enclosing with
    | none => rfl
    | some outer => exact inductionHypothesis outer

/-- A marked place is that of a scope. -/
theorem ScopesAlike.made
    (alike : heap.ScopesAlike likeness globals marks other)
    {mark : Bool}
    (marked : marks[place.index]? = some mark) :
    place.index < heap.scopes.size := by
  rw [← alike.marked]
  exact (List.getElem?_eq_some_iff.mp marked).1

/-- Scopes stay alike as long as they do not change. -/
theorem ScopesAlike.of_scopes_eq
    {after otherAfter : Heap}
    (alike : heap.ScopesAlike likeness globals marks other)
    (sameScopes : after.scopes = heap.scopes)
    (otherScopes : otherAfter.scopes = other.scopes) :
    after.ScopesAlike likeness globals marks otherAfter := by
  obtain ⟨marked, size, scopes, unmarked, outermost⟩ := alike
  have sameScope : after.scope = heap.scope := by
    funext place
    rw [scope, scope, sameScopes]
  have sameOtherScope : otherAfter.scope = other.scope := by
    funext place
    rw [scope, scope, otherScopes]
  refine ⟨?_, ?_, ?_, unmarked, ?_⟩
  · rwa [sameScopes]
  · rwa [sameScopes, otherScopes]
  · rwa [sameScope, sameOtherScope]
  · rwa [sameScope]

/-- A name is bound under its other spelling. -/
theorem ScopesAlike.define
    (alike : heap.ScopesAlike likeness globals marks other)
    {mark : Bool}
    (marked : marks[place.index]? = some mark)
    (name : String)
    (value : Value) :
    (heap.define place name value).ScopesAlike likeness globals marks
      (other.define place (likeness.name mark name) value) := by
  have made := alike.made marked
  have otherMade : place.index < other.scopes.size := alike.size ▸ made
  refine ⟨?_, ?_, ?_, alike.unmarked, ?_⟩
  · rw [size_define, alike.marked]
  · rw [size_define, size_define, alike.size]
  · intro scope found isMarked
    have enclosing : ((other.define place (likeness.name mark name) value).scope scope).enclosing =
        ((heap.define place name value).scope scope).enclosing := by
      rw [enclosing_define, enclosing_define, alike.enclosing]
    have bindings : ((other.define place (likeness.name mark name) value).scope scope).bindings =
        ((heap.define place name value).scope scope).bindings.rename (likeness.name found) := by
      by_cases same : scope = place
      · subst same
        rw [marked, Option.some_inj] at isMarked
        subst isMarked
        rw [bindings_define_self other _ _ _ otherMade, bindings_define_self heap _ _ _ made,
          alike.scopes scope mark marked,
          ← Bindings.set_rename (likeness.toNamePair.name_injective mark)]
      · rw [scope_define_of_ne _ _ _ same, scope_define_of_ne _ _ _ same,
          alike.scopes scope found isMarked]
    rw [← bindings, ← enclosing]
  · rw [enclosing_define]
    exact alike.outermost

/-- A scope is made with the names spelled as its mark says. -/
theorem ScopesAlike.newScope
    (alike : heap.ScopesAlike likeness globals marks other)
    (enclosing : Option ScopeRef)
    (bindings : Bindings Value)
    (mark : Bool) :
    (heap.newScope enclosing bindings).2.ScopesAlike likeness globals (marks ++ [mark])
      (other.newScope enclosing (bindings.rename (likeness.name mark))).2 := by
  refine ⟨?_, ?_, ?_, mark_extended (List.prefix_append _ _) alike.unmarked, ?_⟩
  · simp [Heap.newScope, alike.marked]
  · simp [Heap.newScope, alike.size]
  · intro place found isMarked
    by_cases made : place.index < heap.scopes.size
    · have otherMade : place.index < other.scopes.size := alike.size ▸ made
      rw [List.getElem?_append_left (alike.marked ▸ made)] at isMarked
      rw [scope_newScope_of_lt _ _ _ made, scope_newScope_of_lt _ _ _ otherMade,
        alike.scopes place found isMarked]
    · have isNew : place.index = heap.scopes.size := by
        have inside := (List.getElem?_eq_some_iff.mp isMarked).1
        rw [List.length_append, List.length_singleton, alike.marked] at inside
        omega
      rw [List.getElem?_append_right (by rw [alike.marked]; omega), isNew, alike.marked,
        Nat.sub_self, List.getElem?_cons_zero, Option.some_inj] at isMarked
      subst isMarked
      have isPlace : place = (heap.newScope enclosing bindings).1 := by
        cases place
        simp_all [Heap.newScope]
      have isOtherPlace : place =
          (other.newScope enclosing (bindings.rename (likeness.name mark))).1 := by
        cases place
        simp_all [Heap.newScope, alike.size]
      rw [isPlace, scope_newScope_self, ← isPlace, isOtherPlace, scope_newScope_self]
  · rw [scope_newScope_of_lt _ _ _ (alike.made alike.unmarked)]
    exact alike.outermost

end Heap

end TreeWalk
