import TreeWalk.Proofs.Grammar.Numbering

/-!
# Other numbers for references

A program keeps its meaning when its references get other numbers, as long as
their distances are filed under these.  Here the numbers of all references of a
tree are changed by a function.
-/

namespace TreeWalk

/-- Change the number of a reference. -/
def Reference.renumber (number : Nat -> Nat) (reference : Reference) : Reference :=
  ⟨number reference.id, reference.name⟩

@[simp] theorem Reference.name_renumber (number : Nat -> Nat) (reference : Reference) :
    (reference.renumber number).name = reference.name :=
  rfl

mutual

/-- Change the numbers of the references of an expression. -/
def Expr.renumber (number : Nat -> Nat) : Expr -> Expr
  | .literal value => .literal value
  | .grouping inner => .grouping (inner.renumber number)
  | .unary operator right => .unary operator (right.renumber number)
  | .binary left operator right => .binary (left.renumber number) operator (right.renumber number)
  | .logical left operator right =>
    .logical (left.renumber number) operator (right.renumber number)
  | .read target => .read (target.renumber number)
  | .assign target value => .assign (target.renumber number) (value.renumber number)
  | .call callee paren arguments =>
    .call (callee.renumber number) paren (Expr.listRenumber number arguments)
  | .property object name => .property (object.renumber number) name
  | .setProperty object name value =>
    .setProperty (object.renumber number) name (value.renumber number)
  | .self keyword => .self (keyword.renumber number)
  | .inherited keyword method => .inherited (keyword.renumber number) method

/-- Change the numbers of the references of expressions. -/
def Expr.listRenumber (number : Nat -> Nat) : List Expr -> List Expr
  | [] => []
  | first :: rest => first.renumber number :: Expr.listRenumber number rest

end

/-- Change the numbers of the references of an expression that may be missing. -/
def Expr.optionRenumber (number : Nat -> Nat) : Option Expr -> Option Expr
  | none => none
  | some value => some (value.renumber number)

mutual

/-- Change the numbers of the references of a statement. -/
def Stmt.renumber (number : Nat -> Nat) : Stmt -> Stmt
  | .expression value => .expression (value.renumber number)
  | .print value => .print (value.renumber number)
  | .declare name initializer => .declare name (Expr.optionRenumber number initializer)
  | .block body => .block (Stmt.listRenumber number body)
  | .conditional condition thenBranch elseBranch =>
    .conditional (condition.renumber number) (thenBranch.renumber number)
      (Stmt.optionRenumber number elseBranch)
  | .loop condition body => .loop (condition.renumber number) (body.renumber number)
  | .function declaration => .function (declaration.renumber number)
  | .returns keyword value => .returns keyword (Expr.optionRenumber number value)
  | .classDecl name superclass methods =>
    .classDecl name (superclass.map (·.renumber number)) (FunctionDecl.listRenumber number methods)

/-- Change the numbers of the references of statements. -/
def Stmt.listRenumber (number : Nat -> Nat) : List Stmt -> List Stmt
  | [] => []
  | first :: rest => first.renumber number :: Stmt.listRenumber number rest

/-- Change the numbers of the references of a statement that may be missing. -/
def Stmt.optionRenumber (number : Nat -> Nat) : Option Stmt -> Option Stmt
  | none => none
  | some branch => some (branch.renumber number)

/-- Change the numbers of the references of a function. -/
def FunctionDecl.renumber (number : Nat -> Nat) : FunctionDecl -> FunctionDecl
  | ⟨name, parameters, body⟩ => ⟨name, parameters, Stmt.listRenumber number body⟩

/-- Change the numbers of the references of functions. -/
def FunctionDecl.listRenumber (number : Nat -> Nat) : List FunctionDecl -> List FunctionDecl
  | [] => []
  | first :: rest => first.renumber number :: FunctionDecl.listRenumber number rest

end

attribute [simp] Expr.renumber Expr.listRenumber Expr.optionRenumber Stmt.renumber
  Stmt.listRenumber Stmt.optionRenumber FunctionDecl.renumber FunctionDecl.listRenumber

/-- Expressions are renumbered one by one. -/
theorem Expr.listRenumber_eq_map (number : Nat -> Nat) (values : List Expr) :
    Expr.listRenumber number values = values.map (·.renumber number) := by
  induction values with
  | nil => rfl
  | cons first rest inductionHypothesis => simp [inductionHypothesis]

/-- Statements are renumbered one by one. -/
theorem Stmt.listRenumber_eq_map (number : Nat -> Nat) (steps : List Stmt) :
    Stmt.listRenumber number steps = steps.map (·.renumber number) := by
  induction steps with
  | nil => rfl
  | cons first rest inductionHypothesis => simp [inductionHypothesis]

/-- Functions are renumbered one by one. -/
theorem FunctionDecl.listRenumber_eq_map (number : Nat -> Nat) (functions : List FunctionDecl) :
    FunctionDecl.listRenumber number functions = functions.map (·.renumber number) := by
  induction functions with
  | nil => rfl
  | cons first rest inductionHypothesis => simp [inductionHypothesis]

theorem FunctionDecl.name_renumber (number : Nat -> Nat) (declaration : FunctionDecl) :
    (declaration.renumber number).name = declaration.name := by
  cases declaration
  rw [FunctionDecl.renumber]

section Congruence

variable {number other : Nat -> Nat}

theorem Reference.renumber_congr
    {reference : Reference}
    (same : number reference.id = other reference.id) :
    reference.renumber number = reference.renumber other := by
  rw [Reference.renumber, Reference.renumber, same]

mutual

/-- Two numberings that agree on an expression's ids renumber it in the same way. -/
theorem Expr.renumber_congr :
    ∀ value : Expr, (∀ id ∈ value.ids, number id = other id) ->
      value.renumber number = value.renumber other
  | .literal value, _ => by
    rw [Expr.renumber, Expr.renumber]
  | .grouping inner, same => by
    rw [Expr.ids] at same
    rw [Expr.renumber, Expr.renumber, Expr.renumber_congr inner same]
  | .unary operator right, same => by
    rw [Expr.ids] at same
    rw [Expr.renumber, Expr.renumber, Expr.renumber_congr right same]
  | .binary left operator right, same => by
    rw [Expr.ids, List.forall_mem_append] at same
    rw [Expr.renumber, Expr.renumber, Expr.renumber_congr left same.1,
      Expr.renumber_congr right same.2]
  | .logical left operator right, same => by
    rw [Expr.ids, List.forall_mem_append] at same
    rw [Expr.renumber, Expr.renumber, Expr.renumber_congr left same.1,
      Expr.renumber_congr right same.2]
  | .read target, same => by
    rw [Expr.ids, List.forall_mem_singleton] at same
    rw [Expr.renumber, Expr.renumber, Reference.renumber_congr same]
  | .assign target value, same => by
    rw [Expr.ids, List.forall_mem_append, List.forall_mem_singleton] at same
    rw [Expr.renumber, Expr.renumber, Reference.renumber_congr same.2,
      Expr.renumber_congr value same.1]
  | .call callee paren arguments, same => by
    rw [Expr.ids, List.forall_mem_append] at same
    rw [Expr.renumber, Expr.renumber, Expr.renumber_congr callee same.1,
      Expr.listRenumber_congr arguments same.2]
  | .property object name, same => by
    rw [Expr.ids] at same
    rw [Expr.renumber, Expr.renumber, Expr.renumber_congr object same]
  | .setProperty object name value, same => by
    rw [Expr.ids, List.forall_mem_append] at same
    rw [Expr.renumber, Expr.renumber, Expr.renumber_congr object same.1,
      Expr.renumber_congr value same.2]
  | .self keyword, same => by
    rw [Expr.ids, List.forall_mem_singleton] at same
    rw [Expr.renumber, Expr.renumber, Reference.renumber_congr same]
  | .inherited keyword method, same => by
    rw [Expr.ids, List.forall_mem_singleton] at same
    rw [Expr.renumber, Expr.renumber, Reference.renumber_congr same]

/-- Two numberings that agree on the ids of expressions renumber them in the same way. -/
theorem Expr.listRenumber_congr :
    ∀ values : List Expr, (∀ id ∈ Expr.listIds values, number id = other id) ->
      Expr.listRenumber number values = Expr.listRenumber other values
  | [], _ => by
    rw [Expr.listRenumber, Expr.listRenumber]
  | first :: rest, same => by
    rw [Expr.listIds, List.forall_mem_append] at same
    rw [Expr.listRenumber, Expr.listRenumber, Expr.renumber_congr first same.1,
      Expr.listRenumber_congr rest same.2]

end

/-- Two numberings that agree on an optional expression's ids renumber it in the same way.
-/
theorem Expr.optionRenumber_congr
    {value : Option Expr}
    (same : ∀ id ∈ Expr.optionIds value, number id = other id) :
    Expr.optionRenumber number value = Expr.optionRenumber other value := by
  cases value with
  | none => rfl
  | some value => exact congrArg some (Expr.renumber_congr value same)

mutual

/-- Two numberings that agree on a statement's ids renumber it in the same way. -/
theorem Stmt.renumber_congr :
    ∀ step : Stmt, (∀ id ∈ step.ids, number id = other id) ->
      step.renumber number = step.renumber other
  | .expression value, same => by
    rw [Stmt.ids] at same
    rw [Stmt.renumber, Stmt.renumber, Expr.renumber_congr value same]
  | .print value, same => by
    rw [Stmt.ids] at same
    rw [Stmt.renumber, Stmt.renumber, Expr.renumber_congr value same]
  | .declare name initializer, same => by
    rw [Stmt.ids] at same
    rw [Stmt.renumber, Stmt.renumber, Expr.optionRenumber_congr same]
  | .block body, same => by
    rw [Stmt.ids] at same
    rw [Stmt.renumber, Stmt.renumber, Stmt.listRenumber_congr body same]
  | .conditional condition thenBranch elseBranch, same => by
    rw [Stmt.ids, List.forall_mem_append, List.forall_mem_append] at same
    rw [Stmt.renumber, Stmt.renumber, Expr.renumber_congr condition same.1.1,
      Stmt.renumber_congr thenBranch same.1.2, Stmt.optionRenumber_congr elseBranch same.2]
  | .loop condition body, same => by
    rw [Stmt.ids, List.forall_mem_append] at same
    rw [Stmt.renumber, Stmt.renumber, Expr.renumber_congr condition same.1,
      Stmt.renumber_congr body same.2]
  | .function declaration, same => by
    rw [Stmt.ids] at same
    rw [Stmt.renumber, Stmt.renumber, FunctionDecl.renumber_congr declaration same]
  | .returns keyword value, same => by
    rw [Stmt.ids] at same
    rw [Stmt.renumber, Stmt.renumber, Expr.optionRenumber_congr same]
  | .classDecl name superclass methods, same => by
    rw [Stmt.ids, List.forall_mem_append] at same
    have sameSuperclass : superclass.map (·.renumber number) =
        superclass.map (·.renumber other) := by
      cases superclass with
      | none => rfl
      | some reference =>
        exact congrArg some (Reference.renumber_congr (same.1 _ (List.mem_singleton_self _)))
    rw [Stmt.renumber, Stmt.renumber, sameSuperclass,
      FunctionDecl.listRenumber_congr methods same.2]

/-- Two numberings that agree on the ids of statements renumber them in the same way. -/
theorem Stmt.listRenumber_congr :
    ∀ steps : List Stmt, (∀ id ∈ Stmt.listIds steps, number id = other id) ->
      Stmt.listRenumber number steps = Stmt.listRenumber other steps
  | [], _ => by
    rw [Stmt.listRenumber, Stmt.listRenumber]
  | first :: rest, same => by
    rw [Stmt.listIds, List.forall_mem_append] at same
    rw [Stmt.listRenumber, Stmt.listRenumber, Stmt.renumber_congr first same.1,
      Stmt.listRenumber_congr rest same.2]

/-- Two numberings that agree on a branch's ids renumber it in the same way. -/
theorem Stmt.optionRenumber_congr :
    ∀ branch : Option Stmt, (∀ id ∈ Stmt.optionIds branch, number id = other id) ->
      Stmt.optionRenumber number branch = Stmt.optionRenumber other branch
  | none, _ => by
    rw [Stmt.optionRenumber, Stmt.optionRenumber]
  | some branch, same => by
    rw [Stmt.optionIds] at same
    rw [Stmt.optionRenumber, Stmt.optionRenumber, Stmt.renumber_congr branch same]

/-- Two numberings that agree on a function's ids renumber it in the same way. -/
theorem FunctionDecl.renumber_congr :
    ∀ declaration : FunctionDecl, (∀ id ∈ declaration.ids, number id = other id) ->
      declaration.renumber number = declaration.renumber other
  | ⟨name, parameters, body⟩, same => by
    rw [FunctionDecl.ids] at same
    rw [FunctionDecl.renumber, FunctionDecl.renumber, Stmt.listRenumber_congr body same]

/-- Two numberings that agree on the ids of functions renumber them in the same way. -/
theorem FunctionDecl.listRenumber_congr :
    ∀ functions : List FunctionDecl,
      (∀ id ∈ FunctionDecl.listIds functions, number id = other id) ->
      FunctionDecl.listRenumber number functions = FunctionDecl.listRenumber other functions
  | [], _ => by
    rw [FunctionDecl.listRenumber, FunctionDecl.listRenumber]
  | first :: rest, same => by
    rw [FunctionDecl.listIds, List.forall_mem_append] at same
    rw [FunctionDecl.listRenumber, FunctionDecl.listRenumber,
      FunctionDecl.renumber_congr first same.1, FunctionDecl.listRenumber_congr rest same.2]

end

end Congruence

section Numbers

variable (number : Nat -> Nat)

mutual

@[simp] theorem Expr.ids_renumber : ∀ value : Expr,
    (value.renumber number).ids = value.ids.map number
  | .literal _ => by
    simp [Expr.ids]
  | .grouping inner => by
    simp [Expr.ids, Expr.ids_renumber inner]
  | .unary _ right => by
    simp [Expr.ids, Expr.ids_renumber right]
  | .binary left _ right => by
    simp [Expr.ids, Expr.ids_renumber left, Expr.ids_renumber right]
  | .logical left _ right => by
    simp [Expr.ids, Expr.ids_renumber left, Expr.ids_renumber right]
  | .read _ => by
    simp [Expr.ids, Reference.renumber]
  | .assign _ value => by
    simp [Expr.ids, Reference.renumber, Expr.ids_renumber value]
  | .call callee _ arguments => by
    simp [Expr.ids, Expr.ids_renumber callee, Expr.listIds_renumber arguments]
  | .property object _ => by
    simp [Expr.ids, Expr.ids_renumber object]
  | .setProperty object _ value => by
    simp [Expr.ids, Expr.ids_renumber object, Expr.ids_renumber value]
  | .self _ => by
    simp [Expr.ids, Reference.renumber]
  | .inherited _ _ => by
    simp [Expr.ids, Reference.renumber]

@[simp] theorem Expr.listIds_renumber : ∀ values : List Expr,
    Expr.listIds (Expr.listRenumber number values) = (Expr.listIds values).map number
  | [] => by
    simp [Expr.listIds]
  | first :: rest => by
    simp [Expr.listIds, Expr.ids_renumber first, Expr.listIds_renumber rest]

end

/-- The ids of a renumbered optional expression. -/
theorem Expr.optionIds_renumber (value : Option Expr) :
    Expr.optionIds (Expr.optionRenumber number value) = (Expr.optionIds value).map number := by
  cases value with
  | none => rfl
  | some value => exact Expr.ids_renumber number value

mutual

@[simp] theorem Stmt.ids_renumber : ∀ step : Stmt,
    (step.renumber number).ids = step.ids.map number
  | .expression value => by
    simp [Stmt.ids]
  | .print value => by
    simp [Stmt.ids]
  | .declare _ initializer => by
    rw [Stmt.renumber, Stmt.ids, Stmt.ids, Expr.optionIds_renumber]
  | .block body => by
    simp [Stmt.ids, Stmt.listIds_renumber body]
  | .conditional condition thenBranch elseBranch => by
    simp [Stmt.ids, Stmt.ids_renumber thenBranch, Stmt.optionIds_renumber elseBranch]
  | .loop condition body => by
    simp [Stmt.ids, Stmt.ids_renumber body]
  | .function declaration => by
    simp [Stmt.ids, FunctionDecl.ids_renumber declaration]
  | .returns _ value => by
    rw [Stmt.renumber, Stmt.ids, Stmt.ids, Expr.optionIds_renumber]
  | .classDecl _ none methods => by
    simp [Stmt.ids, Reference.optionIds, FunctionDecl.listIds_renumber methods]
  | .classDecl _ (some _) methods => by
    simp [Stmt.ids, Reference.optionIds, Reference.renumber,
      FunctionDecl.listIds_renumber methods]

@[simp] theorem Stmt.listIds_renumber : ∀ steps : List Stmt,
    Stmt.listIds (Stmt.listRenumber number steps) = (Stmt.listIds steps).map number
  | [] => by
    simp [Stmt.listIds]
  | first :: rest => by
    simp [Stmt.listIds, Stmt.ids_renumber first, Stmt.listIds_renumber rest]

@[simp] theorem Stmt.optionIds_renumber : ∀ branch : Option Stmt,
    Stmt.optionIds (Stmt.optionRenumber number branch) = (Stmt.optionIds branch).map number
  | none => by
    simp [Stmt.optionIds]
  | some branch => by
    simp [Stmt.optionIds, Stmt.ids_renumber branch]

@[simp] theorem FunctionDecl.ids_renumber : ∀ declaration : FunctionDecl,
    (declaration.renumber number).ids = declaration.ids.map number
  | ⟨_, _, body⟩ => by
    simp [FunctionDecl.ids, Stmt.listIds_renumber body]

@[simp] theorem FunctionDecl.listIds_renumber : ∀ functions : List FunctionDecl,
    FunctionDecl.listIds (FunctionDecl.listRenumber number functions) =
      (FunctionDecl.listIds functions).map number
  | [] => by
    simp [FunctionDecl.listIds]
  | first :: rest => by
    simp [FunctionDecl.listIds, FunctionDecl.ids_renumber first,
      FunctionDecl.listIds_renumber rest]

end

end Numbers

@[simp] theorem Reference.renumber_id (reference : Reference) :
    reference.renumber (fun id => id) = reference :=
  rfl

mutual

@[simp] theorem Expr.renumber_id : ∀ value : Expr, value.renumber (fun id => id) = value
  | .literal _ => by
    rw [Expr.renumber]
  | .grouping inner => by
    rw [Expr.renumber, Expr.renumber_id inner]
  | .unary _ right => by
    rw [Expr.renumber, Expr.renumber_id right]
  | .binary left _ right => by
    rw [Expr.renumber, Expr.renumber_id left, Expr.renumber_id right]
  | .logical left _ right => by
    rw [Expr.renumber, Expr.renumber_id left, Expr.renumber_id right]
  | .read target => by
    rw [Expr.renumber, Reference.renumber_id]
  | .assign target value => by
    rw [Expr.renumber, Reference.renumber_id, Expr.renumber_id value]
  | .call callee _ arguments => by
    rw [Expr.renumber, Expr.renumber_id callee, Expr.listRenumber_id arguments]
  | .property object _ => by
    rw [Expr.renumber, Expr.renumber_id object]
  | .setProperty object _ value => by
    rw [Expr.renumber, Expr.renumber_id object, Expr.renumber_id value]
  | .self keyword => by
    rw [Expr.renumber, Reference.renumber_id]
  | .inherited keyword _ => by
    rw [Expr.renumber, Reference.renumber_id]

@[simp] theorem Expr.listRenumber_id :
    ∀ values : List Expr, Expr.listRenumber (fun id => id) values = values
  | [] => by
    rw [Expr.listRenumber]
  | first :: rest => by
    rw [Expr.listRenumber, Expr.renumber_id first, Expr.listRenumber_id rest]

end

@[simp] theorem Expr.optionRenumber_id (value : Option Expr) :
    Expr.optionRenumber (fun id => id) value = value := by
  cases value with
  | none => rfl
  | some value => rw [Expr.optionRenumber, Expr.renumber_id]

mutual

@[simp] theorem Stmt.renumber_id : ∀ step : Stmt, step.renumber (fun id => id) = step
  | .expression value => by
    rw [Stmt.renumber, Expr.renumber_id]
  | .print value => by
    rw [Stmt.renumber, Expr.renumber_id]
  | .declare _ initializer => by
    rw [Stmt.renumber, Expr.optionRenumber_id]
  | .block body => by
    rw [Stmt.renumber, Stmt.listRenumber_id body]
  | .conditional condition thenBranch elseBranch => by
    rw [Stmt.renumber, Expr.renumber_id, Stmt.renumber_id thenBranch,
      Stmt.optionRenumber_id elseBranch]
  | .loop condition body => by
    rw [Stmt.renumber, Expr.renumber_id, Stmt.renumber_id body]
  | .function declaration => by
    rw [Stmt.renumber, FunctionDecl.renumber_id declaration]
  | .returns _ value => by
    rw [Stmt.renumber, Expr.optionRenumber_id]
  | .classDecl _ superclass methods => by
    have sameSuperclass : superclass.map (·.renumber fun id => id) = superclass := by
      cases superclass <;> rfl
    rw [Stmt.renumber, sameSuperclass, FunctionDecl.listRenumber_id methods]

@[simp] theorem Stmt.listRenumber_id :
    ∀ steps : List Stmt, Stmt.listRenumber (fun id => id) steps = steps
  | [] => by
    rw [Stmt.listRenumber]
  | first :: rest => by
    rw [Stmt.listRenumber, Stmt.renumber_id first, Stmt.listRenumber_id rest]

@[simp] theorem Stmt.optionRenumber_id :
    ∀ branch : Option Stmt, Stmt.optionRenumber (fun id => id) branch = branch
  | none => by
    rw [Stmt.optionRenumber]
  | some branch => by
    rw [Stmt.optionRenumber, Stmt.renumber_id branch]

@[simp] theorem FunctionDecl.renumber_id :
    ∀ declaration : FunctionDecl, declaration.renumber (fun id => id) = declaration
  | ⟨_, _, body⟩ => by
    rw [FunctionDecl.renumber, Stmt.listRenumber_id body]

@[simp] theorem FunctionDecl.listRenumber_id :
    ∀ functions : List FunctionDecl, FunctionDecl.listRenumber (fun id => id) functions = functions
  | [] => by
    rw [FunctionDecl.listRenumber]
  | first :: rest => by
    rw [FunctionDecl.listRenumber, FunctionDecl.renumber_id first,
      FunctionDecl.listRenumber_id rest]

end

end TreeWalk
