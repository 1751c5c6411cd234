import TreeWalk.Proofs.Resolution.Site

/-!
# The scopes at a site

Between statements every name of every scope is defined.  Only in the initializer
of a variable is there a name that is declared and not defined, and it stands in
the innermost scope.  So a distance always leads to a scope that defines the
name, unless it was filed for an assignment in such an initializer.
-/

namespace TreeWalk

/-- No name is spelled as the superclass. -/
theorem Token.IsName.ne_superclass
    {token : Token}
    (isName : token.IsName) :
    token.lexeme ≠ superclassName := by
  intro same
  have reserved : Keyword.ofText? superclassName = some .superWord := by decide
  rw [Token.IsName, same, reserved] at isName
  cases isName

namespace Resolution

/-- Every name of a scope is defined. -/
def Settled (scope : Bindings Binding) : Prop :=
  ∀ name, scope.get? name ≠ some .declared

theorem settled_empty : Settled .empty := by
  intro name
  simp

/-- A settled scope stays so when a name is defined. -/
theorem Settled.set
    {scope : Bindings Binding}
    (settled : Settled scope)
    (name : String) :
    Settled (scope.set name .defined) := by
  intro other
  rw [Bindings.get?_set]
  split
  · simp
  · exact settled other

theorem settled_parameterScope (parameters : List Token) :
    Settled (parameterScope parameters) :=
  List.foldlRecOn parameters _ settled_empty fun _ settled parameter _ =>
    settled.set parameter.lexeme

/-- All names are defined, and a scope that binds the superclass lies just around
one that binds the receiver. -/
inductive Calm : List (Bindings Binding) -> Prop
  | none : Calm []
  | plain
      {scope : Bindings Binding}
      {outer : List (Bindings Binding)}
      (settled : Settled scope)
      (noSuperclass : scope.contains superclassName = false)
      (around : Calm outer) :
      Calm (scope :: outer)
  | subclass
      {inner scope : Bindings Binding}
      {outer : List (Bindings Binding)}
      (innerSettled : Settled inner)
      (noSuperclass : inner.contains superclassName = false)
      (hasSelf : inner.get? selfName = some .defined)
      (settled : Settled scope)
      (around : Calm outer) :
      Calm (inner :: scope :: outer)

/-- Binding another name does not bind the superclass. -/
theorem contains_superclass_set
    {scope : Bindings Binding}
    {name : String}
    (noSuperclass : scope.contains superclassName = false)
    (different : name ≠ superclassName) :
    (scope.set name .defined).contains superclassName = false := by
  rw [Bindings.contains_set, noSuperclass, Bool.or_false]
  exact beq_false_of_ne (Ne.symm different)

/-- Calm scopes stay so when a name other than the superclass is bound. -/
theorem Calm.bindName
    {scopes : List (Bindings Binding)}
    {name : String}
    (calm : Calm scopes)
    (different : name ≠ superclassName) :
    Calm (bindName name scopes) := by
  cases calm with
  | none => exact .none
  | plain settled noSuperclass around =>
    exact .plain (settled.set name) (contains_superclass_set noSuperclass different) around
  | subclass innerSettled noSuperclass hasSelf settled around =>
    refine .subclass (innerSettled.set name) (contains_superclass_set noSuperclass different) ?_
      settled around
    rw [Bindings.get?_set]
    split
    · rfl
    · exact hasSelf

/-- A scope of parameters on calm scopes. -/
theorem Calm.parameters
    {scopes : List (Bindings Binding)}
    (calm : Calm scopes)
    {parameters : List Token}
    (names : ∀ parameter ∈ parameters, parameter.IsName) :
    Calm (parameterScope parameters :: scopes) := by
  have noSuperclass : (parameterScope parameters).contains superclassName = false :=
    List.foldlRecOn (motive := fun scope : Bindings Binding =>
        scope.contains superclassName = false)
      parameters _ rfl fun _ noSuperclass parameter member =>
        contains_superclass_set noSuperclass (names parameter member).ne_superclass
  exact .plain (settled_parameterScope parameters) noSuperclass calm

/-- A scope with a receiver on calm scopes. -/
theorem calm_self
    {scopes : List (Bindings Binding)}
    (calm : Calm scopes) :
    Calm (Bindings.empty.set selfName .defined :: scopes) :=
  .plain (settled_empty.set selfName) (by decide) calm

/-- A scope with a receiver inside one with a superclass, on calm scopes. -/
theorem calm_self_superclass
    {scopes : List (Bindings Binding)}
    (calm : Calm scopes) :
    Calm (Bindings.empty.set selfName .defined ::
      Bindings.empty.set superclassName .defined :: scopes) :=
  .subclass (settled_empty.set selfName) (by decide) (by simp)
    (settled_empty.set superclassName) calm

/-- A name is defined in the scope at a distance. -/
def Defines (scopes : List (Bindings Binding)) (name : String) (distance : Nat) : Prop :=
  ∃ scope, scopes[distance]? = some scope ∧ scope.get? name = some .defined

/-- A name bound in a settled scope is defined there. -/
theorem get?_eq_defined
    {scope : Bindings Binding}
    {name : String}
    (settled : Settled scope)
    (bound : scope.contains name = true) :
    scope.get? name = some .defined := by
  rw [Bindings.contains, Option.isSome_iff_exists] at bound
  obtain ⟨standing, found⟩ := bound
  cases standing with
  | declared => exact absurd found (settled name)
  | defined => exact found

/-- Every calm scope is settled. -/
theorem Calm.settled
    {scopes : List (Bindings Binding)}
    (calm : Calm scopes)
    {scope : Bindings Binding}
    (member : scope ∈ scopes) :
    Settled scope := by
  induction calm with
  | none => simp at member
  | plain settled _ _ inductionHypothesis =>
    rcases List.mem_cons.mp member with rfl | inOuter
    · exact settled
    · exact inductionHypothesis inOuter
  | subclass innerSettled _ _ settled _ inductionHypothesis =>
    rw [List.mem_cons, List.mem_cons] at member
    rcases member with rfl | rfl | inOuter
    · exact innerSettled
    · exact settled
    · exact inductionHypothesis inOuter

/-- Just inside of a scope that binds the superclass, the receiver is bound. -/
theorem Calm.self_of_superclass
    {scopes : List (Bindings Binding)}
    (calm : Calm scopes)
    {distance : Nat}
    {scope : Bindings Binding}
    (found : scopes[distance]? = some scope)
    (bound : scope.contains superclassName = true) :
    0 < distance ∧ Defines scopes selfName (distance - 1) := by
  induction calm generalizing distance with
  | none => simp at found
  | plain settled noSuperclass around inductionHypothesis =>
    cases distance with
    | zero =>
      rw [List.getElem?_cons_zero, Option.some_inj] at found
      rw [found, bound] at noSuperclass
      cases noSuperclass
    | succ distance =>
      rw [List.getElem?_cons_succ] at found
      obtain ⟨positive, inner, foundInner, hasSelf⟩ := inductionHypothesis found
      refine ⟨Nat.succ_pos distance, inner, ?_, hasSelf⟩
      rw [← foundInner, Nat.add_sub_cancel]
      obtain ⟨rest, rfl⟩ := Nat.exists_eq_add_one.mpr positive
      rfl
  | subclass innerSettled noSuperclass hasSelf settled around inductionHypothesis =>
    cases distance with
    | zero =>
      rw [List.getElem?_cons_zero, Option.some_inj] at found
      rw [found, bound] at noSuperclass
      cases noSuperclass
    | succ distance =>
      cases distance with
      | zero => exact ⟨Nat.succ_pos 0, _, rfl, hasSelf⟩
      | succ distance =>
        rw [List.getElem?_cons_succ, List.getElem?_cons_succ] at found
        obtain ⟨positive, inner, foundInner, innerSelf⟩ := inductionHypothesis found
        refine ⟨Nat.succ_pos _, inner, ?_, innerSelf⟩
        rw [← foundInner, Nat.add_sub_cancel]
        obtain ⟨rest, rfl⟩ := Nat.exists_eq_add_one.mpr positive
        rfl

/-- Declare a name in the innermost of some scopes. -/
def declareName (name : String) : List (Bindings Binding) -> List (Bindings Binding)
  | [] => []
  | scope :: outer =>
    if scope.contains name then scope :: outer else scope.set name .declared :: outer

theorem scopes_declare (name : String) (walk : Resolution) :
    (walk.declare name).scopes = declareName name walk.scopes := by
  unfold declare
  cases scopes : walk.scopes with
  | nil => simp [declareName]
  | cons scope outer =>
    simp only [declareName]
    split
    · exact scopes
    · rfl

/-- In the innermost scope, declaring a name changes the standing of no other
name, and of this one only if the scope does not have it. -/
theorem get?_declareName
    {scopes : List (Bindings Binding)}
    {name : String}
    {distance : Nat}
    {scope : Bindings Binding}
    (found : (declareName name scopes)[distance]? = some scope)
    (other : String) :
    ∃ base, scopes[distance]? = some base ∧
      (scope.get? other = base.get? other ∨
        (distance = 0 ∧ other = name ∧ base.get? other = none ∧
          scope.get? other = some .declared)) := by
  cases scopes with
  | nil => simp [declareName] at found
  | cons first outer =>
    rw [declareName] at found
    split at found
    · exact ⟨scope, found, .inl rfl⟩
    · rename_i absent
      cases distance with
      | zero =>
        rw [List.getElem?_cons_zero, Option.some_inj] at found
        subst found
        refine ⟨first, rfl, ?_⟩
        by_cases same : other = name
        · subst same
          refine .inr ⟨rfl, rfl, ?_, by simp⟩
          simpa [Bindings.contains] using absent
        · left
          simp [Bindings.get?_set, same]
      | succ distance => exact ⟨scope, found, .inl rfl⟩

/-- Whatever is defined stays defined when a name is declared. -/
theorem Defines.declareName
    {scopes : List (Bindings Binding)}
    {name : String}
    {distance : Nat}
    (defines : Defines scopes name distance)
    (declared : String) :
    Defines (declareName declared scopes) name distance := by
  obtain ⟨base, found, defined⟩ := defines
  have inRange : distance < (Resolution.declareName declared scopes).length := by
    have bound := (List.getElem?_eq_some_iff.mp found).1
    cases scopes with
    | nil => simp at bound
    | cons first outer =>
      rw [Resolution.declareName]
      split <;> exact bound
  have foundScope := List.getElem?_eq_getElem inRange
  obtain ⟨original, foundOriginal, same | ⟨-, -, absent, -⟩⟩ :=
    get?_declareName foundScope name
  · rw [found, Option.some_inj] at foundOriginal
    subst foundOriginal
    exact ⟨_, foundScope, same.trans defined⟩
  · rw [found, Option.some_inj] at foundOriginal
    subst foundOriginal
    rw [defined] at absent
    cases absent

end Resolution

namespace Site

open Resolution

/-- A site lies in the initializer of a local variable with a given name. -/
def InInitializer (root : Site) (name : String) (site : Site) : Prop :=
  ∃ around token initializer walk,
    Within root ⟨around, .statement (.declare token (some initializer)), walk⟩ ∧
      token.lexeme = name ∧ walk.scopes ≠ [] ∧
      Within ⟨around, .expression initializer, walk.declare name⟩ site

/-- The scopes at a site are calm or, in the initializer of a variable, calm
apart from that variable. -/
inductive Standing (root site : Site) : Prop
  | calm (scopes : Calm site.walk.scopes)
  | initializing
      {name : String}
      {base : List (Bindings Binding)}
      (isExpression : site.part.isExpression = true)
      (calm : Calm base)
      (scopes : site.walk.scopes = declareName name base)
      (inside : InInitializer root name site)

/-- The walk over expressions goes to expressions and stays in the same
scopes. -/
theorem scopes_inExpressions
    {site child : Site}
    (isExpression : site.part.isExpression = true)
    (isChild : child ∈ site.children) :
    child.part.isExpression = true ∧ child.walk.scopes = site.walk.scopes := by
  cases child_of_mem_children isChild with
  | grouping | operand | binaryLeft | logicalLeft | assigned | callee | object | valueSet
  | firstExpression =>
    exact ⟨rfl, rfl⟩
  | binaryRight | logicalRight | arguments | objectSet | laterExpressions =>
    exact ⟨rfl, (stays_expression _ _ _).scopes⟩
  | _ => cases isExpression

/-- Calm scopes stay so when a well-formed statement declares its name. -/
theorem calm_bindDeclared
    {scopes : List (Bindings Binding)}
    {step : Stmt}
    (calm : Calm scopes)
    (wellFormed : step.WellFormed Token.IsName) :
    Calm (bindDeclared step.declaredName? scopes) := by
  cases step with
  | declare name initializer =>
    rw [Stmt.WellFormed] at wellFormed
    exact calm.bindName wellFormed.1.ne_superclass
  | function declaration =>
    obtain ⟨name, parameters, body⟩ := declaration
    rw [Stmt.WellFormed, FunctionDecl.WellFormed] at wellFormed
    exact calm.bindName wellFormed.1.ne_superclass
  | classDecl name superclass functions =>
    rw [Stmt.WellFormed] at wellFormed
    exact calm.bindName wellFormed.1.ne_superclass
  | _ => exact calm

/-- The parts of a part that stands in the root stand there too. -/
theorem Standing.child
    {root site child : Site}
    (standing : Standing root site)
    (within : Within root site)
    (wellFormed : site.part.WellFormed Token.IsName)
    (isChild : child ∈ site.children) :
    Standing root child := by
  cases standing with
  -- No part of an initializer declares anything, so it is still the same name that is awaited.
  | initializing isExpression calm scopes inside =>
    obtain ⟨childExpression, childScopes⟩ := scopes_inExpressions isExpression isChild
    obtain ⟨around, token, initializer, walk, declared, isName, isLocal, reached⟩ := inside
    exact .initializing childExpression calm (childScopes.trans scopes)
      ⟨around, token, initializer, walk, declared, isName, isLocal, reached.step isChild⟩
  | calm calm =>
    cases child_of_mem_children isChild with
    | @initializer around walk name value =>
      by_cases outside : walk.scopes = []
      · refine .calm ?_
        rw [scopes_declare, outside]
        exact .none
      · exact .initializing rfl calm (scopes_declare name.lexeme walk)
          ⟨around, name, value, walk, within, rfl, outside, .refl⟩
    | block => exact .calm (.plain settled_empty rfl calm)
    | @thenBranch around walk condition | @loopBody around walk condition =>
      have tested := (stays_expression around condition walk).scopes
      exact .calm (tested ▸ calm)
    | elseBranch =>
      rw [Part.WellFormed, Stmt.WellFormed] at wellFormed
      obtain ⟨-, ⟨thenDeclares, thenForm⟩, -⟩ := wellFormed
      refine .calm ?_
      dsimp only
      rw [scopes_statement _ _ _ thenForm, thenDeclares, bindDeclared,
        (stays_expression _ _ _).scopes]
      exact calm
    | function =>
      refine .calm ?_
      rw [scopes_bind]
      exact calm_bindDeclared calm wellFormed
    | returned =>
      refine .calm ?_
      dsimp only
      split
      · exact calm
      · exact calm
    | classMethods =>
      refine .calm (calm_self ?_)
      rw [scopes_bind]
      exact calm_bindDeclared calm wellFormed
    | superclass =>
      refine .calm ?_
      dsimp only [checkSuperclass]
      split
      · exact (scopes_bind _ _).symm ▸ calm_bindDeclared calm wellFormed
      · exact (scopes_bind _ _).symm ▸ calm_bindDeclared calm wellFormed
    | subclassMethods =>
      refine .calm ?_
      dsimp only [enter]
      rw [scopes_enterSubclass, scopes_bind]
      exact calm_self_superclass (calm_bindDeclared calm wellFormed)
    | laterStatements =>
      rw [Part.WellFormed, Stmt.AllWellFormed] at wellFormed
      refine .calm ?_
      dsimp only
      rw [scopes_statement _ _ _ wellFormed.1]
      exact calm_bindDeclared calm wellFormed.1
    | body =>
      rw [Part.WellFormed, FunctionDecl.WellFormed] at wellFormed
      refine .calm ?_
      dsimp only
      rw [scopes_enterFunction]
      exact calm.parameters wellFormed.2.1
    | laterMethods =>
      rw [Part.WellFormed, FunctionDecl.AllWellFormed] at wellFormed
      refine .calm ?_
      dsimp only
      rw [scopes_function _ _ _ wellFormed.1]
      exact calm
    | evaluated | printed | condition | loopCondition | firstStatement | firstMethod =>
      exact .calm calm
    | _ => exact .calm ((scopes_inExpressions rfl isChild).2 ▸ calm)

/-- Every part within a root that begins outermost stands there. -/
theorem Within.standing
    {root site : Site}
    (within : Within root site)
    (sound : Sound root)
    (outermost : root.walk.scopes = []) :
    Standing root site := by
  induction within with
  | refl =>
    refine .calm ?_
    rw [outermost]
    exact .none
  | step within isChild inductionHypothesis =>
    exact inductionHypothesis.child within (within.sound sound).wellFormed isChild

/-! ## Filed distances -/

/-- A distance leads to a scope that has the name, at least as far out as asked. -/
theorem distance?_eq_some
    {walk : Resolution}
    {name : String}
    {skip distance : Nat}
    (found : walk.distance? name skip = some distance) :
    ∃ scope, walk.scopes[distance]? = some scope ∧ scope.contains name = true ∧
      skip ≤ distance := by
  rw [distance?, Option.map_eq_some_iff] at found
  obtain ⟨position, isFirst, rfl⟩ := found
  obtain ⟨inRange, binds, -⟩ := List.findIdx?_eq_some_iff_getElem.mp isFirst
  have atPosition := List.getElem?_eq_getElem inRange
  rw [List.getElem?_drop] at atPosition
  exact ⟨_, atPosition, binds, Nat.le_add_right skip position⟩

/-- What is filed for a reference is what was looked up. -/
theorem getElem?_file
    (around : Surroundings)
    {reference : Reference}
    {walk : Resolution}
    (fresh : walk.distances[reference.id]? = none)
    (skipped : Nat) :
    (walk.file around reference skipped).distances[reference.id]? =
      walk.distance? reference.name.lexeme skipped := by
  unfold file
  split
  · rename_i absent
    rw [fresh, absent]
  · rename_i found
    rw [found]
    exact Std.TreeMap.getElem?_insert_self

/-- A distance that has been filed is the one that was looked up. -/
theorem distance?_of_file
    {around : Surroundings}
    {reference : Reference}
    {skip distance : Nat}
    {walk : Resolution}
    (fresh : walk.distances[reference.id]? = none)
    (filed : (walk.file around reference skip).distances[reference.id]? = some distance) :
    walk.distance? reference.name.lexeme skip = some distance := by
  rwa [getElem?_file around fresh] at filed

section Filed

variable {root : Site} {around : Surroundings} {walk : Resolution} {distance : Nat}

/-- A scope that binds a name defines it, except for the innermost one in the
initializer of that name. -/
theorem Standing.defines
    {site : Site}
    (standing : Standing root site)
    {name : String}
    {scope : Bindings Binding}
    (found : site.walk.scopes[distance]? = some scope)
    (bound : scope.contains name = true) :
    Defines site.walk.scopes name distance ∨
      (distance = 0 ∧ scope.get? name = some .declared ∧ InInitializer root name site) := by
  cases standing with
  | calm calm =>
    have settled := calm.settled (List.mem_of_getElem? found)
    exact .inl ⟨scope, found, get?_eq_defined settled bound⟩
  | initializing isExpression calm scopes inside =>
    rw [scopes] at found
    obtain ⟨base, foundBase, same | ⟨rfl, rfl, -, declared⟩⟩ := get?_declareName found name
    · have baseBound : base.contains name = true := by
        rw [Bindings.contains, ← same]
        exact bound
      have defined := get?_eq_defined (calm.settled (List.mem_of_getElem? foundBase)) baseBound
      refine .inl ⟨scope, ?_, same.trans defined⟩
      rw [scopes]
      exact found
    · exact .inr ⟨rfl, declared, inside⟩

/-- A variable with an initializer is not spelled as a keyword. -/
theorem InInitializer.name_not_reserved
    {site : Site}
    {name : String}
    (inside : InInitializer root name site)
    (sound : Sound root) :
    Keyword.ofText? name = none := by
  obtain ⟨outerAround, token, initializer, outerWalk, within, rfl, -, -⟩ := inside
  have wellFormed := (within.sound sound).wellFormed
  rw [Part.WellFormed, Stmt.WellFormed] at wellFormed
  exact wellFormed.1

/-- The distance of a variable that is read leads to a scope that defines it. -/
theorem defines_of_readName
    {site : Site}
    {reference : Reference}
    (standing : Standing root site)
    (fresh : site.walk.distances[reference.id]? = none)
    (filed : (site.walk.readName around reference).distances[reference.id]? = some distance) :
    Defines site.walk.scopes reference.name.lexeme distance := by
  unfold readName at filed
  dsimp only at filed
  split at filed
  · rename_i outside
    obtain ⟨scope, found, -, -⟩ := distance?_eq_some (distance?_of_file fresh filed)
    simp [outside] at found
  · rename_i innermost outer shape
    split at filed
    · split at filed
      · obtain ⟨scope, found, bound, skipped⟩ := distance?_eq_some (distance?_of_file fresh filed)
        rcases standing.defines found bound with defines | ⟨rfl, -, -⟩
        · exact defines
        · cases skipped
      · rw [report, fresh] at filed
        cases filed
    · rename_i notDeclared
      obtain ⟨scope, found, bound, -⟩ := distance?_eq_some (distance?_of_file fresh filed)
      rcases standing.defines found bound with defines | ⟨rfl, declared, -⟩
      · exact defines
      · rw [shape, List.getElem?_cons_zero, Option.some_inj] at found
        subst found
        exact absurd declared notDeclared

/-- The distance at which a read is filed leads to a scope that defines the name. -/
theorem defines_of_read
    {target : Reference}
    (within : Within root ⟨around, .expression (.read target), walk⟩)
    (sound : Sound root)
    (outermost : root.walk.scopes = [])
    (filed : root.outcome.distances[target.id]? = some distance) :
    Defines walk.scopes target.name.lexeme distance := by
  have member : target.id ∈ (Part.expression (.read target)).ids := by simp [Part.ids, Expr.ids]
  rw [(within.filed sound member).1, outcome, Resolution.expression] at filed
  exact defines_of_readName (within.standing sound outermost)
    ((within.sound sound).fresh _ member) filed

/-- The distance at which a superclass is filed leads to a scope that defines its name. -/
theorem defines_of_superclass
    {reference : Reference}
    (within : Within root ⟨around, .superclass reference, walk⟩)
    (sound : Sound root)
    (outermost : root.walk.scopes = [])
    (filed : root.outcome.distances[reference.id]? = some distance) :
    Defines walk.scopes reference.name.lexeme distance := by
  have member : reference.id ∈ (Part.superclass reference).ids := by simp [Part.ids]
  rw [(within.filed sound member).1, outcome] at filed
  exact defines_of_readName (within.standing sound outermost)
    ((within.sound sound).fresh _ member) filed

/-- The distance of a variable that is assigned to leads to a scope that defines
it, unless the assignment is in the initializer of that very variable. -/
theorem defines_of_assign
    {target : Reference}
    {value : Expr}
    (within : Within root ⟨around, .expression (.assign target value), walk⟩)
    (sound : Sound root)
    (outermost : root.walk.scopes = [])
    (filed : root.outcome.distances[target.id]? = some distance) :
    distance < walk.scopes.length ∧
      (Defines walk.scopes target.name.lexeme distance ∨
        InInitializer root target.name.lexeme
          ⟨around, .expression (.assign target value), walk⟩) := by
  have member : target.id ∈ (Part.expression (.assign target value)).ids := by
    simp [Part.ids, Expr.ids]
  have distinct := (within.sound sound).distinct
  rw [Part.ids, Expr.ids, List.nodup_append] at distinct
  have notInValue : target.id ∉ value.ids := fun inside =>
    distinct.2.2 _ inside _ (List.mem_singleton_self _) rfl
  have fresh : (Resolution.expression around value walk).distances[target.id]? = none := by
    rw [(adds_expression around value walk).distances _ notInValue]
    exact (within.sound sound).fresh _ member
  rw [(within.filed sound member).1, outcome, Resolution.expression] at filed
  obtain ⟨scope, found, bound, -⟩ := distance?_eq_some (distance?_of_file fresh filed)
  rw [(stays_expression around value walk).scopes] at found
  refine ⟨(List.getElem?_eq_some_iff.mp found).1, ?_⟩
  rcases (within.standing sound outermost).defines found bound with defines | ⟨-, -, inside⟩
  · exact .inl defines
  · exact .inr inside

/-- A reserved word that is bound is defined. -/
theorem defines_of_keyword
    {site : Site}
    {keyword : Reference}
    {reserved : Keyword}
    (standing : Standing root site)
    (sound : Sound root)
    (isReserved : Keyword.ofText? keyword.name.lexeme = some reserved)
    (fresh : site.walk.distances[keyword.id]? = none)
    (filed : (site.walk.file around keyword 0).distances[keyword.id]? = some distance) :
    Defines site.walk.scopes keyword.name.lexeme distance := by
  obtain ⟨scope, found, bound, -⟩ := distance?_eq_some (distance?_of_file fresh filed)
  rcases standing.defines found bound with defines | ⟨-, -, inside⟩
  · exact defines
  · rw [inside.name_not_reserved sound] at isReserved
    cases isReserved

/-- The distance at which a receiver is filed leads to a scope that defines it. -/
theorem defines_of_self
    {keyword : Reference}
    (within : Within root ⟨around, .expression (.self keyword), walk⟩)
    (sound : Sound root)
    (outermost : root.walk.scopes = [])
    (filed : root.outcome.distances[keyword.id]? = some distance) :
    Defines walk.scopes selfName distance := by
  have member : keyword.id ∈ (Part.expression (.self keyword)).ids := by
    simp [Part.ids, Expr.ids]
  have reached := within.sound sound
  have spelled : keyword.name.lexeme = selfName := by
    have wellFormed := reached.wellFormed
    rwa [Part.WellFormed, Expr.WellFormed] at wellFormed
  have isReserved : Keyword.ofText? keyword.name.lexeme = some .thisWord := by
    rw [spelled]
    decide
  rw [(within.filed sound member).1, outcome, Resolution.expression, readSelf] at filed
  have fresh := reached.fresh _ member
  have standing := within.standing sound outermost
  rw [← spelled]
  split at filed
  · rw [report, fresh] at filed
    cases filed
  · exact defines_of_keyword standing sound isReserved fresh filed
  · exact defines_of_keyword standing sound isReserved fresh filed

/-- The distance of `super` leads to a scope that defines it, and the receiver is
defined just inside of that scope. -/
theorem defines_of_inherited
    {keyword : Reference}
    {method : Token}
    (within : Within root ⟨around, .expression (.inherited keyword method), walk⟩)
    (sound : Sound root)
    (outermost : root.walk.scopes = [])
    (filed : root.outcome.distances[keyword.id]? = some distance) :
    Defines walk.scopes superclassName distance ∧ 0 < distance ∧
      Defines walk.scopes selfName (distance - 1) := by
  have member : keyword.id ∈ (Part.expression (.inherited keyword method)).ids := by
    simp [Part.ids, Expr.ids]
  have reached := within.sound sound
  have spelled : keyword.name.lexeme = superclassName := by
    have wellFormed := reached.wellFormed
    rwa [Part.WellFormed, Expr.WellFormed] at wellFormed
  have isReserved : Keyword.ofText? keyword.name.lexeme = some .superWord := by
    rw [spelled]
    decide
  have fresh := reached.fresh _ member
  have standing := within.standing sound outermost
  -- A keyword that is filed is read in a method of a subclass.
  have defines : Defines walk.scopes superclassName distance := by
    rw [(within.filed sound member).1, outcome, Resolution.expression, readInherited] at filed
    rw [← spelled]
    split at filed
    · rw [report, fresh] at filed
      cases filed
    · rw [report, fresh] at filed
      cases filed
    · exact defines_of_keyword standing sound isReserved fresh filed
  obtain ⟨scope, found, defined⟩ := defines
  have bound : scope.contains superclassName = true := by
    rw [Bindings.contains, defined]
    rfl
  refine ⟨⟨scope, found, defined⟩, ?_⟩
  cases standing with
  | calm calm => exact calm.self_of_superclass found bound
  | initializing isExpression calm scopes inside =>
    dsimp only at scopes
    rw [scopes] at found ⊢
    obtain ⟨base, foundBase, same | ⟨-, -, -, declared⟩⟩ := get?_declareName found superclassName
    · have baseBound : base.contains superclassName = true := by
        rw [Bindings.contains, ← same]
        exact bound
      obtain ⟨positive, selfDefined⟩ := calm.self_of_superclass foundBase baseBound
      exact ⟨positive, selfDefined.declareName _⟩
    · rw [defined] at declared
      cases declared

end Filed

end Site
end TreeWalk
