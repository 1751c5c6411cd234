import TreeWalk.Proofs.Evaluation.Respelled
import TreeWalk.Proofs.Session.History

/-!
# Sessions that are alike

Between two runs a machine takes up and drops distances.  Machines that are alike
stay so, as long as the references inside of functions keep their distances.  And
the machine of a session is like itself, whatever names are exchanged in scopes
that are still to be made.
-/

namespace TreeWalk

/-- The declarations of all functions on a heap have a property. -/
structure Heap.Declares (heap : Heap) (holds : FunctionDecl -> Prop) : Prop where
  functions : ∀ (place : FunctionRef) (closure : Closure), heap.function? place = some closure ->
    holds closure.declaration
  methods : ∀ (place : ClassRef) (found : Class), heap.class? place = some found ->
    ∀ table ∈ found.lineage, ∀ (name : String) (method : Closure),
      table.get? name = some method -> holds method.declaration

/-- The references of all functions on a heap have numbers with a property. -/
def Heap.Numbers (heap : Heap) (holds : Nat -> Prop) : Prop :=
  heap.Declares fun declaration => ∀ id ∈ declaration.ids, holds id

section Declarations

variable {heap : Heap}

/-- What holds of all functions on the heap implies anything weaker. -/
theorem Heap.Declares.imp
    {holds weaker : FunctionDecl -> Prop}
    (declares : heap.Declares holds)
    (implies : ∀ declaration, holds declaration -> weaker declaration) :
    heap.Declares weaker :=
  ⟨fun place closure found => implies _ (declares.functions place closure found),
    fun place ofClass found table member name method isMethod =>
      implies _ (declares.methods place ofClass found table member name method isMethod)⟩

/-- What holds of all functions holds of those on the heap. -/
theorem Heap.declares_of_forall
    {holds : FunctionDecl -> Prop}
    (heap : Heap)
    (always : ∀ declaration, holds declaration) :
    heap.Declares holds :=
  ⟨fun _ _ _ => always _, fun _ _ _ _ _ _ _ _ => always _⟩

/-- What holds of all ids on the heap implies anything weaker. -/
theorem Heap.Numbers.imp
    {holds weaker : Nat -> Prop}
    (numbers : heap.Numbers holds)
    (implies : ∀ id, holds id -> weaker id) :
    heap.Numbers weaker :=
  Heap.Declares.imp numbers fun _ inside id member => implies id (inside id member)

/-- Two properties of all ids on the heap. -/
theorem Heap.Numbers.and
    {holds further : Nat -> Prop}
    (numbers : heap.Numbers holds)
    (others : heap.Numbers further) :
    heap.Numbers fun id => holds id ∧ further id :=
  ⟨fun place closure found id member =>
      ⟨numbers.functions place closure found id member,
        others.functions place closure found id member⟩,
    fun place ofClass found table member name method isMethod id inside =>
      ⟨numbers.methods place ofClass found table member name method isMethod id inside,
        others.methods place ofClass found table member name method isMethod id inside⟩⟩

/-- What holds of all ids holds of those on the heap. -/
theorem Heap.numbers_of_forall
    {holds : Nat -> Prop}
    (heap : Heap)
    (always : ∀ id, holds id) :
    heap.Numbers holds :=
  heap.declares_of_forall fun _ id _ => always id

end Declarations

/-- On a faithful machine the functions come from charted sites, so that what holds of
the functions at such sites holds of their declarations. -/
theorem Machine.Faithful.declares
    {roots : List Site}
    {machine : Machine}
    {holds : FunctionDecl -> Prop}
    (faithful : machine.Faithful roots)
    (charted : ∀ site declaration, Charted roots machine.distances site ->
      site.around.functionKind ≠ .none -> site.part = .function declaration -> holds declaration) :
    machine.heap.Declares holds := by
  have placed : ∀ {closure : Closure} {receivers : List (Bindings Binding)},
      closure.Placed roots machine receivers -> holds closure.declaration := by
    rintro closure receivers ⟨site, outer, isCharted, part, inside, -⟩
    exact charted site _ isCharted inside part
  exact ⟨fun place closure found => placed (faithful.functions place closure found),
    fun place ofClass found table member name method isMethod =>
      placed (faithful.methods place ofClass found table member name method isMethod)⟩

/-- The numbers in the functions on a faithful machine are those of charted sites. -/
theorem Machine.Faithful.numbers
    {roots : List Site}
    {machine : Machine}
    {holds : Nat -> Prop}
    (faithful : machine.Faithful roots)
    (charted : ∀ site, Charted roots machine.distances site -> site.around.functionKind ≠ .none ->
      ∀ id ∈ site.part.ids, holds id) :
    machine.heap.Numbers holds := by
  refine faithful.declares fun site declaration isCharted inside part id member => ?_
  refine charted site isCharted inside id ?_
  rw [part]
  exact member

/-- Some programs declare a function. -/
def DeclaredIn (roots : List Site) (declaration : FunctionDecl) : Prop :=
  ∃ root ∈ roots, declaration ∈ root.part.functions

/-- Whatever the functions on a faithful machine declare, some program declares. -/
theorem Machine.Faithful.declaredIn
    {roots : List Site}
    {machine : Machine}
    (faithful : machine.Faithful roots) :
    machine.heap.Declares fun declaration =>
      ∀ inner ∈ declaration.functions, DeclaredIn roots inner := by
  refine faithful.declares fun site declaration charted _ part inner isInner => ?_
  obtain ⟨root, isRoot, charts⟩ := charted
  refine ⟨root, isRoot, charts.within.functions_subset ?_⟩
  rw [part]
  exact isInner

/-- The numbers in all functions on the heap of a consistent session have been
given out. -/
theorem Session.Consistent.numbers
    {session : Session}
    {roots : List Site}
    (consistent : session.Consistent roots) :
    session.machine.heap.Numbers (· < session.nextId) := by
  refine consistent.faithful.numbers fun site charted _ id inside => ?_
  obtain ⟨root, member, sound, -, within, -⟩ := charted
  exact consistent.numbered root member id (within.ids_subset sound inside)

/-- When a program has been interpreted, no function on the heap has a number that
is to be dropped. -/
theorem Session.numbers_interpreted
    {session : Session}
    {roots : List Site}
    {source : String}
    (consistent : session.Consistent roots)
    (accepts : session.staticErrors source = [])
    (fuel : Nat) :
    (session.interpreted fuel source).2.2.heap.Numbers
      (· ∉ (session.resolution source).topLevel.toList) := by
  have advances :=
    advances_interpret fuel session.echo 0 rfl (located_root consistent accepts)
  exact advances.faithful.numbers fun site charted inside id member =>
    not_mem_topLevel consistent accepts charted inside member

section Tables

variable
  {likeness later : Likeness}
  {globals : ScopeRef}
  {marks : List Bool}
  {heap other : Heap}

/-- Heaps are alike in another way if their functions are. -/
theorem Heap.Alike.imp
    {holds : FunctionDecl -> Prop}
    (alike : heap.Alike likeness globals marks other)
    (samePair : later.toNamePair = likeness.toNamePair)
    (declares : heap.Declares holds)
    (closures : ∀ {coming : List Bool} {closure otherClosure : Closure},
      closure.Alike likeness heap globals marks coming otherClosure ->
      holds closure.declaration ->
      closure.Alike later heap globals marks coming otherClosure) :
    heap.Alike later globals marks other where
  marked := alike.marked
  size := alike.size
  scopes := by
    rw [samePair]
    exact alike.scopes
  natives := alike.natives
  functionsSize := alike.functionsSize
  functions place :=
    rel_imp_of_eq (alike.functions place) fun closure _ isFunction related =>
      closures related (declares.functions place closure isFunction)
  classesSize := alike.classesSize
  classes place := by
    refine rel_imp_of_eq (alike.classes place) fun found otherFound isClass related =>
      ⟨related.name, ?_⟩
    have inLineage := declares.methods place found isClass
    have lineage := related.lineage
    generalize found.lineage = tables at lineage inLineage ⊢
    generalize otherFound.lineage = otherTables at lineage ⊢
    induction lineage with
    | nil => exact .nil
    | cons methods _ inductionHypothesis =>
      rw [List.forall_mem_cons] at inLineage
      refine .cons (fun name => ?_) (inductionHypothesis inLineage.2)
      exact rel_imp_of_eq (methods name) fun method _ isMethod related =>
        closures related (inLineage.1 name method isMethod)
  instances := alike.instances

/-- What is filed under a number is the same in the tables of another likeness. -/
def Likeness.SameAt (likeness later : Likeness) (id : Nat) : Prop :=
  later.before[id]? = likeness.before[id]? ∧
    later.after[likeness.number id]? = likeness.after[likeness.number id]?

/-- Machines stay alike with other tables that have the same distances for the
references inside of functions. -/
theorem Machine.Alike.retable
    {machine otherMachine : Machine}
    (alike : machine.Alike likeness marks otherMachine)
    (samePair : later.toNamePair = likeness.toNamePair)
    (sameNumber : later.number = likeness.number)
    (lines : ∀ line, likeness.lines line -> later.lines line)
    (moves : ∀ declaration line, likeness.moves declaration line -> later.moves declaration line)
    (same : machine.heap.Numbers (likeness.SameAt later)) :
    Machine.Alike later marks { machine with distances := later.before }
      { otherMachine with distances := later.after } := by
  refine ⟨?_, alike.globals, alike.unmarked, alike.outermost, alike.scope, rfl, rfl,
    alike.callDepth, alike.clock, alike.output⟩
  refine alike.heap.imp samePair same ?_
  rintro coming closure otherClosure ⟨wellFormed, spelling, choice, chosen, admits, isOther, marked⟩
    sameInside
  refine ⟨wellFormed, spelling, choice, chosen, ⟨?_, ?_, ?_, ?_, ?_, ?_⟩, isOther, marked⟩
  · exact admits.pair.trans samePair.symm
  · exact lines _ admits.line
  · exact admits.number.trans sameNumber.symm
  · intro id inside
    rw [admits.filed id inside, (sameInside id inside).1]
  · intro id inside
    rw [sameNumber, (sameInside id inside).2, admits.same id inside, (sameInside id inside).1]
  · exact fun declaration member => moves _ _ (admits.moved declaration member)

/-- The same values are bound globally. -/
theorem Machine.Alike.globalScope_eq
    {machine otherMachine : Machine}
    (alike : machine.Alike likeness marks otherMachine) :
    otherMachine.heap.scope otherMachine.globals = machine.heap.scope machine.globals := by
  rw [alike.globals, alike.heap.scopes machine.globals false alike.unmarked]
  exact congrArg (Scope.mk · _) (Bindings.rename_id _)

/-- Alike machines have the same names in their tables. -/
theorem Machine.Alike.globalNames_eq
    {machine otherMachine : Machine}
    (alike : machine.Alike likeness marks otherMachine) :
    otherMachine.globalNames = machine.globalNames := by
  rw [globalNames, globalNames, alike.globalScope_eq]

/-- Two sessions are the same up to a likeness of some kind: the same values are
bound globally, the same distances are filed, and the machines are alike. -/
structure Session.SameUpTo (allows : Likeness -> Prop) (session other : Session) : Prop where
  nextId : other.nextId = session.nextId
  echo : other.echo = session.echo
  output : other.machine.output = session.machine.output
  globals : other.machine.globals = session.machine.globals
  bindings : other.machine.heap.scope other.machine.globals =
    session.machine.heap.scope session.machine.globals
  distances : ∀ id : Nat, other.machine.distances[id]? = session.machine.distances[id]?
  alike : ∃ likeness marks, allows likeness ∧ session.machine.Alike likeness marks other.machine

/-- Sessions that are the same up to a likeness have as many distances. -/
theorem Session.SameUpTo.resolvedLocals_eq
    {allows : Likeness -> Prop}
    {session other : Session}
    (same : session.SameUpTo allows other) :
    other.resolvedLocals = session.resolvedLocals := by
  have renumbered : Distances.Renumbered (fun id => id) session.machine.distances
      other.machine.distances := ⟨same.distances, fun id outside => absurd rfl (outside id)⟩
  exact renumbered.size_eq Function.injective_id

end Tables

section Self

variable
  {likeness : Likeness}
  {roots : List Site}
  {machine : Machine}

/-- A chain without marks. -/
theorem Heap.marked_of_agrees
    {heap : Heap}
    {globals place : ScopeRef}
    {scopes : List (Bindings Binding)}
    (agrees : heap.Agrees globals place scopes) :
    heap.Marked globals (List.replicate heap.scopes.size false) place
      (scopes.map fun _ => false) := by
  induction agrees with
  | outermost => exact .outermost
  | inside made encloses earlier _ _ inductionHypothesis =>
    refine .inside made encloses earlier ?_ inductionHypothesis
    rw [List.getElem?_replicate, if_pos made]

/-- The spelling that changes nothing. -/
def Likeness.unchanged (likeness : Likeness) : Spelling where
  toNamePair := likeness.toNamePair
  distances := likeness.before
  line place := place
  number := likeness.number

/-- A placed closure is like itself where neither its lines, its ids nor its distances
change. -/
theorem Closure.alike_self
    {closure : Closure}
    {receivers : List (Bindings Binding)}
    (still : likeness.lines fun place => place)
    (numbered : likeness.number = fun id => id)
    (placed : closure.Placed roots machine receivers)
    (same : ∀ id ∈ closure.declaration.ids, likeness.after[id]? = likeness.before[id]?)
    (keeps : ∀ inner ∈ closure.declaration.functions, likeness.moves inner fun place => place) :
    closure.Alike likeness machine.heap machine.globals
      (List.replicate machine.heap.scopes.size false) (receivers.map fun _ => false) closure := by
  obtain ⟨site, outer, charted, part, -, -, agrees⟩ := placed
  have wellFormed := charted.wellFormed
  rw [part] at wellFormed
  refine ⟨wellFormed, likeness.unchanged, .nowhere, outer.map fun _ => false, ⟨rfl, still, rfl,
    fun _ _ => rfl, ?_, keeps⟩, ?_, Heap.marked_of_agrees agrees⟩
  · intro id inside
    rw [numbered]
    exact same id inside
  · have plain : likeness.unchanged.Plain .nowhere
        ((receivers.map fun _ => false) ++ outer.map fun _ => false) := by
      refine .inr ⟨rfl, ?_⟩
      simp
    have sameNumbers : likeness.unchanged.number = fun id => id := numbered
    rw [FunctionDecl.respell_of_plain (fun _ => rfl) plain, sameNumbers, FunctionDecl.renumber_id]

/-- An optional value is related to itself when the value is. -/
theorem rel_self
    {α : Type}
    {relation : α -> α -> Prop}
    {found : Option α}
    (related : ∀ value, found = some value -> relation value value) :
    Option.Rel relation found found := by
  cases found with
  | none => exact .none
  | some value => exact .some (related value rfl)

/-- A faithful machine is like one that has other distances for references outside
of its functions.  None of its scopes is marked. -/
theorem Machine.Faithful.alike
    {distances : Distances}
    (faithful : machine.Faithful roots)
    (still : likeness.lines fun place => place)
    (numbered : likeness.number = fun id => id)
    (before : machine.distances = likeness.before)
    (after : distances = likeness.after)
    (same : machine.heap.Numbers fun id => likeness.after[id]? = likeness.before[id]?)
    (keeps : machine.heap.Declares fun declaration =>
      ∀ inner ∈ declaration.functions, likeness.moves inner fun place => place) :
    machine.Alike likeness (List.replicate machine.heap.scopes.size false)
      { machine with distances := distances } := by
  have unmarked : ∀ {index : Nat} {mark : Bool},
      (List.replicate machine.heap.scopes.size false)[index]? = some mark -> mark = false :=
    fun found => (List.mem_replicate.mp (List.mem_of_getElem? found)).2
  refine ⟨⟨?_, rfl, ?_, rfl, rfl, ?_, rfl, ?_, rfl⟩, rfl, ?_, faithful.outermost, rfl, before,
    after, rfl, rfl, rfl⟩
  · exact List.length_replicate
  · intro place mark marked
    rw [unmarked marked]
    have sameNames := Bindings.rename_id (machine.heap.scope place).bindings
    exact congrArg (Scope.mk · _) sameNames.symm
  · intro place
    refine rel_self fun closure isFunction => ?_
    exact closure.alike_self still numbered (faithful.functions place closure isFunction)
      (same.functions place closure isFunction) (keeps.functions place closure isFunction)
  · intro place
    refine rel_self fun found isClass => ⟨rfl, List.forall₂_same.mpr fun table member name => ?_⟩
    refine rel_self fun method isMethod => ?_
    exact method.alike_self still numbered
      (faithful.methods place found isClass table member name method isMethod)
      (same.methods place found isClass table member name method isMethod)
      (keeps.methods place found isClass table member name method isMethod)
  · rw [List.getElem?_replicate, if_pos faithful.globalsMade]

end Self

end TreeWalk
