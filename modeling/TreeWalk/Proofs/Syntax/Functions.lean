import TreeWalk.Proofs.Resolution.Site

/-!
# The functions of a program

A part of a program declares functions, some of them inside of others.  Those of a
smaller part, which the walk over the part goes to, are among them.
-/

namespace TreeWalk

mutual

/-- The functions that a statement declares, at any depth. -/
def Stmt.functions : Stmt -> List FunctionDecl
  | .expression _ => []
  | .print _ => []
  | .declare _ _ => []
  | .block body => Stmt.listFunctions body
  | .conditional _ thenBranch elseBranch => thenBranch.functions ++ Stmt.optionFunctions elseBranch
  | .loop _ body => body.functions
  | .function declaration => declaration.functions
  | .returns _ _ => []
  | .classDecl _ _ methods => FunctionDecl.listFunctions methods

/-- The functions that statements declare, at any depth. -/
def Stmt.listFunctions : List Stmt -> List FunctionDecl
  | [] => []
  | first :: rest => first.functions ++ Stmt.listFunctions rest

/-- The functions that a statement declares, if there is one. -/
def Stmt.optionFunctions : Option Stmt -> List FunctionDecl
  | none => []
  | some value => value.functions

/-- A function and those that its body declares. -/
def FunctionDecl.functions : FunctionDecl -> List FunctionDecl
  | ⟨name, parameters, body⟩ => ⟨name, parameters, body⟩ :: Stmt.listFunctions body

/-- Functions and those that their bodies declare. -/
def FunctionDecl.listFunctions : List FunctionDecl -> List FunctionDecl
  | [] => []
  | first :: rest => first.functions ++ FunctionDecl.listFunctions rest

end

/-- The functions that a part of a program declares.  Expressions declare none. -/
def Part.functions : Part -> List FunctionDecl
  | .expression _ => []
  | .expressions _ => []
  | .superclass _ => []
  | .statement step => step.functions
  | .statements steps => Stmt.listFunctions steps
  | .function declaration => declaration.functions
  | .methods declarations => FunctionDecl.listFunctions declarations

namespace Site

/-- What a smaller part declares, the whole part declares. -/
theorem Child.functions_subset
    {site child : Site}
    (isChild : Child site child) :
    child.part.functions ⊆ site.part.functions := by
  cases isChild <;>
    simp only [Part.functions, Stmt.functions, Stmt.listFunctions, Stmt.optionFunctions,
      FunctionDecl.functions, FunctionDecl.listFunctions, List.nil_subset, List.Subset.refl,
      List.subset_append_left, List.subset_append_right, List.subset_cons_self]

/-- What is declared where the walk over a part gets to, the part declares. -/
theorem Within.functions_subset
    {root site : Site}
    (within : Within root site) :
    site.part.functions ⊆ root.part.functions := by
  induction within with
  | refl => exact List.Subset.refl _
  | step _ isChild inductionHypothesis =>
    exact List.Subset.trans (child_of_mem_children isChild).functions_subset inductionHypothesis

end Site
end TreeWalk
