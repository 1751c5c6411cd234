import TreeWalk.Heap
import TreeWalk.Proofs.Bindings

/-!
# Heaps from which nothing is missing

A value refers to what is on the heap by its place.  On an intact heap there is
something at every place that a stored value refers to, the methods of every class
are filed under their own names, and exactly those with the name of initializers are
marked as initializers.  Nothing that is done to a heap takes anything away, and an
instance stays an instance of its class, so a heap stays intact as long as only values
that refer to something are stored on it.
-/

namespace TreeWalk

/-- A method is filed under its own name, and is marked as an initializer if that is the
name of initializers. -/
def Closure.FiledAs (name : String) (method : Closure) : Prop :=
  method.declaration.name.lexeme = name ∧ method.isInitializer = decide (name = initializerName)

/-- Every method of a class is filed under its own name. -/
def Class.Filed (made : Class) : Prop :=
  ∀ table ∈ made.lineage, table.All Closure.FiledAs

namespace Heap

/-- There is something on the heap at the place that a value refers to. -/
def Holds (heap : Heap) : Value -> Prop
  | .native place => place.index < heap.natives.size
  | .function place => place.index < heap.functions.size
  | .classObject place => place.index < heap.classes.size
  | .object place => place.index < heap.instances.size
  | _ => True

/-- The class and the fields of an instance are on the heap. -/
def HoldsParts (heap : Heap) (object : Instance) : Prop :=
  heap.Holds (.classObject object.ofClass) ∧ object.fields.All fun _ value => heap.Holds value

/-- Whatever is stored on the heap refers to something there, and the methods of every
class are filed under their own names.  The only native functions are those that read
the clock. -/
structure Intact (heap : Heap) : Prop where
  natives : ∀ (place : NativeRef) (native : Native),
    heap.native? place = some native -> native.body = .clock
  scopes : ∀ place : ScopeRef, (heap.scope place).bindings.All fun _ value => heap.Holds value
  instances : ∀ (place : InstanceRef) (object : Instance),
    heap.instance? place = some object -> heap.HoldsParts object
  classes : ∀ (place : ClassRef) (found : Class), heap.class? place = some found -> found.Filed

/-- Whatever one heap has is there on another one, and the instances are of the same
classes. -/
structure Retains (before after : Heap) : Prop where
  natives : after.natives = before.natives
  functions : before.functions.size ≤ after.functions.size
  classes : before.classes.size ≤ after.classes.size
  instances : ∀ (place : InstanceRef) (object : Instance),
    before.instance? place = some object ->
      ∃ fields, after.instance? place = some ⟨object.ofClass, fields⟩

namespace Retains

variable {before middle after : Heap}

theorem refl (heap : Heap) : Retains heap heap :=
  ⟨rfl, Nat.le_refl _, Nat.le_refl _, fun _ object found => ⟨object.fields, found⟩⟩

theorem trans
    (one : before.Retains middle)
    (other : middle.Retains after) :
    before.Retains after := by
  refine ⟨other.natives.trans one.natives, Nat.le_trans one.functions other.functions,
    Nat.le_trans one.classes other.classes, fun place object found => ?_⟩
  obtain ⟨fields, kept⟩ := one.instances place object found
  exact other.instances place ⟨object.ofClass, fields⟩ kept

/-- No instance goes away. -/
theorem instances_size (retains : before.Retains after) :
    before.instances.size ≤ after.instances.size := by
  refine Nat.le_of_not_lt fun shrunk => ?_
  have found : before.instance? ⟨after.instances.size⟩ =
      some before.instances[after.instances.size] :=
    Array.getElem?_eq_getElem shrunk
  obtain ⟨fields, kept⟩ := retains.instances _ _ found
  exact Nat.lt_irrefl _ (Array.getElem?_eq_some_iff.mp kept).1

/-- A value that refers to records of the heap still does. -/
theorem holds
    (retains : before.Retains after)
    {value : Value}
    (held : before.Holds value) :
    after.Holds value := by
  cases value with
  | native place =>
    rw [Holds, retains.natives]
    exact held
  | function place => exact Nat.lt_of_lt_of_le held retains.functions
  | classObject place => exact Nat.lt_of_lt_of_le held retains.classes
  | object place => exact Nat.lt_of_lt_of_le held retains.instances_size
  | _ => trivial

/-- An instance whose parts refer to records of the heap still has such parts. -/
theorem holdsParts
    (retains : before.Retains after)
    {object : Instance}
    (held : before.HoldsParts object) :
    after.HoldsParts object :=
  ⟨retains.holds held.1, fun name value bound => retains.holds (held.2 name value bound)⟩

end Retains

/-- A heap is still intact if all that is new on it is as it should be. -/
theorem Intact.later
    {before after : Heap}
    (intact : before.Intact)
    (retains : before.Retains after)
    (scopes : ∀ (place : ScopeRef) (name : String) (value : Value),
      (after.scope place).bindings.get? name = some value ->
        (before.scope place).bindings.get? name = some value ∨ after.Holds value)
    (instances : ∀ (place : InstanceRef) (object : Instance), after.instance? place = some object ->
      before.instance? place = some object ∨ after.HoldsParts object)
    (classes : ∀ (place : ClassRef) (found : Class), after.class? place = some found ->
      before.class? place = some found ∨ found.Filed) :
    after.Intact := by
  refine ⟨fun place native found => ?_, fun place name value bound => ?_,
    fun place object found => ?_, fun place ofClass found => ?_⟩
  · rw [native?, retains.natives] at found
    exact intact.natives place native found
  · rcases scopes place name value bound with old | isNew
    · exact retains.holds (intact.scopes place name value old)
    · exact isNew
  · rcases instances place object found with old | isNew
    · exact retains.holdsParts (intact.instances place object old)
    · exact isNew
  · rcases classes place ofClass found with old | isNew
    · exact intact.classes place ofClass old
    · exact isNew

section Steps

variable {heap : Heap}

theorem retains_newScope
    (heap : Heap)
    (enclosing : Option ScopeRef)
    (bindings : Bindings Value) :
    heap.Retains (heap.newScope enclosing bindings).2 :=
  ⟨rfl, Nat.le_refl _, Nat.le_refl _, fun _ object found => ⟨object.fields, found⟩⟩

/-- A new scope of held values keeps the heap intact. -/
theorem Intact.newScope
    (intact : heap.Intact)
    (enclosing : Option ScopeRef)
    {bindings : Bindings Value}
    (held : bindings.All fun _ value => heap.Holds value) :
    (heap.newScope enclosing bindings).2.Intact := by
  have retains := retains_newScope heap enclosing bindings
  refine intact.later retains (fun place name value bound => ?_) (fun _ _ => .inl) fun _ _ => .inl
  simp only [scope, Heap.newScope, Array.getD_eq_getD_getElem?, Array.getElem?_push] at bound
  split at bound
  · exact .inr (retains.holds (held name value bound))
  · rw [← Array.getD_eq_getD_getElem?] at bound
    exact .inl bound

theorem retains_define
    (heap : Heap)
    (place : ScopeRef)
    (name : String)
    (value : Value) :
    heap.Retains (heap.define place name value) :=
  ⟨rfl, Nat.le_refl _, Nat.le_refl _, fun _ object found => ⟨object.fields, found⟩⟩

/-- Binding a held value keeps the heap intact. -/
theorem Intact.define
    (intact : heap.Intact)
    (place : ScopeRef)
    (name : String)
    {value : Value}
    (held : heap.Holds value) :
    (heap.define place name value).Intact := by
  have retains := retains_define heap place name value
  refine intact.later retains (fun other known found bound => ?_) (fun _ _ => .inl) fun _ _ => .inl
  by_cases same : other = place
  · subst same
    by_cases made : other.index < heap.scopes.size
    · rw [bindings_define_self heap other name value made, Bindings.get?_set] at bound
      split at bound
      · cases bound
        exact .inr (retains.holds held)
      · exact .inl bound
    · simp [Heap.define, scope, made] at bound
  · rw [scope_define_of_ne heap name value same] at bound
    exact .inl bound

theorem retains_newFunction (heap : Heap) (closure : Closure) :
    heap.Retains (heap.newFunction closure).2 := by
  refine ⟨rfl, ?_, Nat.le_refl _, fun _ object found => ⟨object.fields, found⟩⟩
  simp [newFunction]

/-- A new closure keeps the heap intact. -/
theorem Intact.newFunction (intact : heap.Intact) (closure : Closure) :
    (heap.newFunction closure).2.Intact :=
  intact.later (retains_newFunction heap closure) (fun _ _ _ => .inl) (fun _ _ => .inl)
    fun _ _ => .inl

theorem retains_newClass (heap : Heap) (made : Class) : heap.Retains (heap.newClass made).2 := by
  refine ⟨rfl, Nat.le_refl _, ?_, fun _ object found => ⟨object.fields, found⟩⟩
  simp [newClass]

/-- A new class whose methods are filed keeps the heap intact. -/
theorem Intact.newClass
    (intact : heap.Intact)
    {made : Class}
    (filed : made.Filed) :
    (heap.newClass made).2.Intact := by
  refine intact.later (retains_newClass heap made) (fun _ _ _ => .inl) (fun _ _ => .inl)
    fun place found isClass => ?_
  simp only [class?, Heap.newClass, Array.getElem?_push] at isClass
  split at isClass
  · cases isClass
    exact .inr filed
  · exact .inl isClass

theorem retains_newInstance (heap : Heap) (ofClass : ClassRef) :
    heap.Retains (heap.newInstance ofClass).2 := by
  refine ⟨rfl, Nat.le_refl _, Nat.le_refl _, fun place object found => ⟨object.fields, ?_⟩⟩
  have inRange := (Array.getElem?_eq_some_iff.mp found).1
  simp only [instance?, newInstance, Array.getElem?_push_lt inRange]
  exact (Array.getElem?_eq_getElem inRange).symm.trans found

/-- A new instance is at a place where there was none. -/
theorem instance?_newInstance (heap : Heap) (ofClass : ClassRef) :
    heap.instance? (heap.newInstance ofClass).1 = none ∧
      (heap.newInstance ofClass).2.instance? (heap.newInstance ofClass).1 =
        some ⟨ofClass, .empty⟩ := by
  simp [instance?, newInstance]

/-- A new instance of a held class keeps the heap intact. -/
theorem Intact.newInstance
    (intact : heap.Intact)
    {ofClass : ClassRef}
    (held : heap.Holds (.classObject ofClass)) :
    (heap.newInstance ofClass).2.Intact := by
  refine intact.later (retains_newInstance heap ofClass) (fun _ _ _ => .inl)
    (fun place object isInstance => ?_) fun _ _ => .inl
  simp only [instance?, Heap.newInstance, Array.getElem?_push] at isInstance
  split at isInstance
  · cases isInstance
    exact .inr ⟨held, Bindings.all_empty⟩
  · exact .inl isInstance

/-- The instance at a place after a field of some instance has been set. -/
theorem instance?_setField
    (heap : Heap)
    (place other : InstanceRef)
    (name : String)
    (value : Value) :
    (heap.setField place name value).instance? other =
      (heap.instance? other).map fun object =>
        if other = place then { object with fields := object.fields.set name value }
        else object := by
  obtain ⟨index⟩ := place
  obtain ⟨otherIndex⟩ := other
  simp only [instance?, setField, Array.getElem?_modify, InstanceRef.mk.injEq]
  by_cases same : index = otherIndex
  · simp [same]
  · simp [same, Ne.symm same]

theorem retains_setField
    (heap : Heap)
    (place : InstanceRef)
    (name : String)
    (value : Value) :
    heap.Retains (heap.setField place name value) := by
  refine ⟨rfl, Nat.le_refl _, Nat.le_refl _, fun other object found => ?_⟩
  rw [instance?_setField, found]
  by_cases same : other = place
  · exact ⟨object.fields.set name value, by simp [same]⟩
  · exact ⟨object.fields, by simp [same]⟩

/-- A field with a held value keeps the heap intact. -/
theorem Intact.setField
    (intact : heap.Intact)
    (place : InstanceRef)
    (name : String)
    {value : Value}
    (held : heap.Holds value) :
    (heap.setField place name value).Intact := by
  have retains := retains_setField heap place name value
  refine intact.later retains (fun _ _ _ => .inl) (fun other object isInstance => ?_)
    fun _ _ => .inl
  rw [instance?_setField, Option.map_eq_some_iff] at isInstance
  obtain ⟨old, found, rfl⟩ := isInstance
  obtain ⟨ofClass, fields⟩ := retains.holdsParts (intact.instances other old found)
  split
  · exact .inr ⟨ofClass, fields.set (retains.holds held)⟩
  · exact .inl found

theorem retains_bindMethod (heap : Heap) (method : Closure) (receiver : InstanceRef) :
    heap.Retains (heap.bindMethod method receiver).2 :=
  retains_newScope heap _ _

/-- Binding a held receiver keeps the heap intact. -/
theorem Intact.bindMethod
    (intact : heap.Intact)
    (method : Closure)
    {receiver : InstanceRef}
    (held : heap.Holds (.object receiver)) :
    (heap.bindMethod method receiver).2.Intact :=
  intact.newScope _ (Bindings.all_empty.set held)

end Steps

section Reading

variable {heap : Heap}

/-- What is read at a distance is held. -/
theorem Intact.getAt
    (intact : heap.Intact)
    (place : ScopeRef)
    (distance : Nat)
    (name : String) :
    heap.Holds (heap.getAt place distance name) := by
  unfold Heap.getAt
  cases bound : (heap.scope (heap.ancestor place distance)).bindings.get? name with
  | none => trivial
  | some value => exact intact.scopes _ name value bound

/-- What is read by name is held. -/
theorem Intact.get?
    (intact : heap.Intact)
    {place : ScopeRef}
    {name : String}
    {value : Value}
    (found : heap.get? place name = some value) :
    heap.Holds value := by
  rw [Heap.get?, Option.bind_eq_some_iff] at found
  obtain ⟨scope, -, bound⟩ := found
  exact intact.scopes scope name value bound

/-- A method of a class is marked as an initializer if it is declared as one. -/
theorem Intact.method
    (intact : heap.Intact)
    {place : ClassRef}
    {name : String}
    {method : Closure}
    (found : heap.method? place name = some method) :
    method.isInitializer = decide (method.declaration.name.lexeme = initializerName) := by
  rw [method?, Option.bind_eq_some_iff] at found
  obtain ⟨ofClass, isClass, isMethod⟩ := found
  rw [Class.method?, List.findSome?_eq_some_iff] at isMethod
  obtain ⟨_, table, _, lineage, bound, -⟩ := isMethod
  obtain ⟨sameName, isMarked⟩ :=
    intact.classes place ofClass isClass table (by simp [lineage]) name method bound
  rw [sameName, isMarked]

end Reading

end Heap
end TreeWalk
