import TreeWalk.Proofs.Evaluation.Stages
import TreeWalk.Proofs.Heap.Chain
import TreeWalk.Proofs.Resolution.Standing

/-!
# Machines that are faithful to name resolution

On the walk over a program, name resolution has a stack of scopes at every site.
A scope on the heap agrees with such a stack when its chain has one scope for
each of the stack, and these bind at least the names that are defined there.  A
machine is faithful to some programs when every function on its heap comes from
a site of one of them, and remembers a scope that agrees with the stack there.
-/

namespace TreeWalk

namespace Heap

/-- The scope at a place binds every name that is defined in a scope of the
walk. -/
def Binds (heap : Heap) (place : ScopeRef) (scope : Bindings Binding) : Prop :=
  ∀ name, scope.get? name = some .defined -> (heap.scope place).bindings.contains name = true

/-- The chain of a place has one scope for each scope of the walk, which binds
the names that are defined there. -/
def Agrees
    (heap : Heap)
    (globals place : ScopeRef)
    (scopes : List (Bindings Binding)) : Prop :=
  Chained heap globals heap.Binds place scopes

/-- A scope agrees with the resolver's scopes on every later heap. -/
theorem Agrees.grow
    {before after : Heap}
    {globals place : ScopeRef}
    {scopes : List (Bindings Binding)}
    (agrees : before.Agrees globals place scopes)
    (grows : Grows before after) :
    after.Agrees globals place scopes :=
  Chained.grow agrees grows fun _ _ made binds name defined =>
    grows.names _ name made (binds name defined)

/-- A name that is defined at a distance is bound in the scope at that
distance. -/
theorem Agrees.contains
    {heap : Heap}
    {globals place : ScopeRef}
    {scopes : List (Bindings Binding)}
    (agrees : heap.Agrees globals place scopes)
    {name : String}
    {distance : Nat}
    (defines : Resolution.Defines scopes name distance) :
    (heap.scope (heap.ancestor place distance)).bindings.contains name = true := by
  obtain ⟨scope, found, defined⟩ := defines
  exact (Chained.ancestor agrees found).1 name defined

/-- A new scope agrees with the stack that has one more scope, if it binds the
names that are defined there. -/
theorem agrees_newScope
    {heap : Heap}
    {globals place : ScopeRef}
    {scopes : List (Bindings Binding)}
    (agrees : heap.Agrees globals place scopes)
    (globalsMade : globals.index < heap.scopes.size)
    {bindings : Bindings Value}
    {scope : Bindings Binding}
    (binds : ∀ name, scope.get? name = some .defined -> bindings.contains name = true) :
    (heap.newScope (some place) bindings).2.Agrees globals
      (heap.newScope (some place) bindings).1 (scope :: scopes) := by
  have earlier := Chained.made agrees globalsMade
  refine .inside ?_ ?_ earlier ?_ (agrees.grow (grows_newScope heap _ _))
  · simp [newScope]
  · rw [scope_newScope_self]
  · intro name defined
    rw [scope_newScope_self]
    exact binds name defined

/-- A name that the innermost scope binds may be defined there. -/
theorem Agrees.bindName
    {heap : Heap}
    {globals place : ScopeRef}
    {scopes : List (Bindings Binding)}
    {name : String}
    (agrees : heap.Agrees globals place scopes)
    (bound : (heap.scope place).bindings.contains name = true) :
    heap.Agrees globals place (Resolution.bindName name scopes) := by
  cases agrees with
  | outermost => exact .outermost
  | inside made encloses earlier binds around =>
    refine .inside made encloses earlier (fun other defined => ?_) around
    rw [Bindings.get?_set] at defined
    by_cases same : other = name
    · exact same ▸ bound
    · rw [if_neg same] at defined
      exact binds other defined

/-- Binding a name where the walk has the name defined keeps the agreement. -/
theorem agrees_define
    {heap : Heap}
    {globals place : ScopeRef}
    {scopes : List (Bindings Binding)}
    (agrees : heap.Agrees globals place scopes)
    (name : String)
    (value : Value) :
    (heap.define place name value).Agrees globals place (Resolution.bindName name scopes) := by
  have grown := agrees.grow (grows_define heap place name value)
  cases agrees with
  | outermost => exact .outermost
  | inside made =>
    refine grown.bindName ?_
    rw [contains_define_self heap made]
    simp

end Heap

/-- A site of a program, the references of which have the distances that were
filed on the walk over the program. -/
structure Site.Charts (root : Site) (distances : Distances) (site : Site) : Prop where
  sound : root.Sound
  outermost : root.walk.scopes = []
  within : root.Within site
  filed : ∀ id ∈ site.part.ids, distances[id]? = root.outcome.distances[id]?

/-- A site of one of some programs, with the distances that were filed there. -/
def Charted (roots : List Site) (distances : Distances) (site : Site) : Prop :=
  ∃ root ∈ roots, root.Charts distances site

namespace Charted

variable {roots : List Site} {distances : Distances} {site : Site}

/-- The parts of a charted part are charted. -/
theorem child
    {inner : Site}
    (charted : Charted roots distances site)
    (isChild : inner ∈ site.children) :
    Charted roots distances inner := by
  obtain ⟨root, member, sound, outermost, within, filed⟩ := charted
  obtain ⟨before, after, covers⟩ := (Site.child_of_mem_children isChild).covers
  refine ⟨root, member, sound, outermost, within.step isChild, fun id inChild => ?_⟩
  exact filed id (covers.disjoint (within.sound sound).distinct inChild).2.2

/-- A charted part is where the resolver's rules allow it to be. -/
theorem sound (charted : Charted roots distances site) : site.Sound := by
  obtain ⟨root, -, sound, -, within, -⟩ := charted
  exact within.sound sound

/-- A charted part is well formed, as the roots are. -/
theorem wellFormed (charted : Charted roots distances site) : site.part.WellFormed Token.IsName :=
  charted.sound.wellFormed

end Charted

/-- A function comes from a charted site, and the scope that it remembers agrees
with the walk there, apart from some scopes that are still to be added. -/
def Closure.Placed
    (roots : List Site)
    (machine : Machine)
    (closure : Closure)
    (receivers : List (Bindings Binding)) : Prop :=
  ∃ site outer, Charted roots machine.distances site ∧
    site.part = .function closure.declaration ∧ site.around.functionKind ≠ .none ∧
    site.walk.scopes = receivers ++ outer ∧
    machine.heap.Agrees machine.globals closure.scope outer

/-- The scope that binds the receiver of a method. -/
def receiverScope : Bindings Binding :=
  Bindings.empty.set selfName .defined

/-- Every function on the heap comes from a site of one of some programs, and the
scope that it remembers agrees with the walk there.  A method that is not bound
to a receiver lacks the scope for it. -/
structure Machine.Faithful (roots : List Site) (machine : Machine) : Prop where
  globalsMade : machine.globals.index < machine.heap.scopes.size
  outermost : (machine.heap.scope machine.globals).enclosing = none
  functions : ∀ (place : FunctionRef) (closure : Closure),
    machine.heap.function? place = some closure -> closure.Placed roots machine []
  methods : ∀ (place : ClassRef) (found : Class), machine.heap.class? place = some found ->
    ∀ table ∈ found.lineage, ∀ (name : String) (method : Closure),
      table.get? name = some method -> method.Placed roots machine [receiverScope]

/-- A placed closure stays placed on every later machine of the session. -/
theorem Closure.Placed.advance
    {roots : List Site}
    {before after : Machine}
    {closure : Closure}
    {receivers : List (Bindings Binding)}
    (placed : closure.Placed roots before receivers)
    (grows : Heap.Grows before.heap after.heap)
    (globals : after.globals = before.globals)
    (distances : after.distances = before.distances) :
    closure.Placed roots after receivers := by
  obtain ⟨site, outer, charted, part, inside, scopes, agrees⟩ := placed
  rw [← distances] at charted
  refine ⟨site, outer, charted, part, inside, scopes, ?_⟩
  rw [globals]
  exact agrees.grow grows

/-- A machine with more scopes, and with the same functions and classes, is as
faithful. -/
theorem Machine.Faithful.advance
    {roots : List Site}
    {before after : Machine}
    (faithful : before.Faithful roots)
    (grows : Heap.Grows before.heap after.heap)
    (globals : after.globals = before.globals)
    (distances : after.distances = before.distances)
    (functions : ∀ (place : FunctionRef) (closure : Closure),
      after.heap.function? place = some closure ->
        before.heap.function? place = some closure ∨ closure.Placed roots after [])
    (methods : ∀ (place : ClassRef) (found : Class), after.heap.class? place = some found ->
      before.heap.class? place = some found ∨
        ∀ table ∈ found.lineage, ∀ (name : String) (method : Closure),
          table.get? name = some method -> method.Placed roots after [receiverScope]) :
    after.Faithful roots := by
  refine ⟨?_, ?_, fun place closure found => ?_, fun place ofClass found => ?_⟩
  · rw [globals]
    exact Nat.lt_of_lt_of_le faithful.globalsMade grows.size
  · rw [globals, grows.enclosing _ faithful.globalsMade]
    exact faithful.outermost
  · rcases functions place closure found with known | placed
    · exact (faithful.functions place closure known).advance grows globals distances
    · exact placed
  · rcases methods place ofClass found with known | placed
    · intro table member name method isMethod
      exact (faithful.methods place ofClass known table member name method isMethod).advance
        grows globals distances
    · exact placed

/-- Only the heap, the globals and the distances matter. -/
theorem Machine.Faithful.of_eq
    {roots : List Site}
    {machine other : Machine}
    (faithful : machine.Faithful roots)
    (heap : other.heap = machine.heap)
    (globals : other.globals = machine.globals)
    (distances : other.distances = machine.distances) :
    other.Faithful roots := by
  refine faithful.advance (heap ▸ .refl _) globals distances ?_ ?_
  · intro place closure found
    rw [heap] at found
    exact .inl found
  · intro place ofClass found
    rw [heap] at found
    exact .inl found

end TreeWalk
