import TreeWalk.Machine
import TreeWalk.Proofs.Renumbering

/-!
# References around a spare scope

Of two machines that run the same program, one may have a scope in some place that the
other one does without.  Nothing is declared in such a spare scope, so names mean the
same on both machines, but what lies further out has a distance that is smaller by one
on the other machine.

This module says when the references of a program mean the same in both runs.  In the
second run they may have other numbers.
-/

namespace TreeWalk

/-- Whether there is a spare scope around a place and, if there is, how many scopes lie
between: the spare scope lies beyond these. -/
inductive Gap where
  | none
  | beyond (position : Nat)
deriving DecidableEq

namespace Gap

/-- The gap as it is seen from a scope further in. -/
def enter : Gap -> Gap
  | none => none
  | .beyond position => .beyond (position + 1)

/-- The distance without the spare scope. -/
def shift : Gap -> Nat -> Nat
  | none, distance => distance
  | .beyond position, distance => if distance < position then distance else distance - 1

/-- What is found in both runs: nothing, or a scope that is no spare one, at its
distance in either run. -/
def Carries (gap : Gap) : Option Nat -> Option Nat -> Prop
  | .none, other => other = .none
  | some distance, other => gap ≠ .beyond distance ∧ other = some (gap.shift distance)

@[simp] theorem enter_ne (gap : Gap) : gap.enter ≠ .beyond 0 := by
  cases gap <;> simp [enter]

@[simp] theorem enter_eq_beyond {gap : Gap} {position : Nat} :
    gap.enter = .beyond (position + 1) ↔ gap = .beyond position := by
  cases gap <;> simp [enter]

theorem enter_inj {gap other : Gap} (same : gap.enter = other.enter) : gap = other := by
  cases gap <;> cases other <;> simp_all [enter]

@[simp] theorem shift_enter_zero (gap : Gap) : gap.enter.shift 0 = 0 := by
  cases gap <;> simp [enter, shift]

/-- One scope further in, a distance that is one larger shifts in the same way. -/
theorem shift_enter_succ
    {gap : Gap}
    {distance : Nat}
    (elsewhere : gap ≠ .beyond distance) :
    gap.enter.shift (distance + 1) = gap.shift distance + 1 := by
  cases gap with
  | none => rfl
  | beyond position =>
    have different : position ≠ distance := fun same => elsewhere (congrArg Gap.beyond same)
    simp only [enter, shift]
    split <;> split <;> omega

/-- The next scope further in. -/
theorem shift_pred
    {gap : Gap}
    {distance : Nat}
    (elsewhere : gap ≠ .beyond distance)
    (notBefore : gap ≠ .beyond (distance - 1)) :
    gap.shift (distance - 1) = gap.shift distance - 1 := by
  cases gap with
  | none => rfl
  | beyond position =>
    have different : position ≠ distance := fun same => elsewhere (congrArg Gap.beyond same)
    have notPrevious : position ≠ distance - 1 := fun same => notBefore (congrArg Gap.beyond same)
    simp only [shift]
    split <;> split <;> omega

end Gap

/-- What two runs have to do with each other: the distances on either machine, and the
global scope. -/
structure Setting where
  before : Distances
  after : Distances
  globals : ScopeRef

namespace Setting

/-- A reference, which has another number in the second run, means the same variable in
both of them. -/
def Files (setting : Setting) (number : Nat -> Nat) (gap : Gap) (id : Nat) : Prop :=
  gap.Carries setting.before[id]? setting.after[number id]?

/-- The scope just inside of the one that a reference means is no spare one. -/
def FilesInside (setting : Setting) (gap : Gap) (id : Nat) : Prop :=
  ∀ distance, setting.before[id]? = some distance -> gap ≠ .beyond (distance - 1)

theorem files_of_same
    {setting : Setting}
    {number : Nat -> Nat}
    {id : Nat}
    (same : setting.after[number id]? = setting.before[id]?) :
    setting.Files number .none id := by
  rw [Files, same]
  cases setting.before[id]? with
  | none => rfl
  | some distance => exact ⟨nofun, rfl⟩

/-- Without a spare scope around it, a reference has the same distance. -/
theorem Files.same
    {setting : Setting}
    {number : Nat -> Nat}
    {id : Nat}
    (files : setting.Files number .none id) :
    setting.before[id]? = setting.after[number id]? := by
  unfold Files at files
  cases found : setting.before[id]? with
  | none =>
    rw [found] at files
    exact files.symm
  | some distance =>
    rw [found] at files
    exact files.2.symm

/-- In a spare scope, a reference has a distance that is greater by one. -/
theorem Files.further
    {setting : Setting}
    {number : Nat -> Nat}
    {id : Nat}
    (files : setting.Files number (.beyond 0) id) :
    setting.before[id]? = setting.after[number id]?.map (· + 1) := by
  unfold Files at files
  cases found : setting.before[id]? with
  | none =>
    rw [found] at files
    rw [files, Option.map_none]
  | some distance =>
    rw [found] at files
    obtain ⟨elsewhere, isFiled⟩ := files
    cases distance with
    | zero => exact absurd rfl elsewhere
    | succ distance => rw [isFiled, Option.map_some, Gap.shift, if_neg (Nat.not_lt_zero _),
        Nat.add_sub_cancel]

end Setting

section Fits

variable (setting : Setting) (number : Nat -> Nat)

mutual

/-- The references of an expression mean the same in both runs. -/
def Expr.Fits (gap : Gap) : Expr -> Prop
  | .literal _ => True
  | .grouping inner => inner.Fits gap
  | .unary _ right => right.Fits gap
  | .binary left _ right => left.Fits gap ∧ right.Fits gap
  | .logical left _ right => left.Fits gap ∧ right.Fits gap
  | .read target => setting.Files number gap target.id
  | .assign target value => value.Fits gap ∧ setting.Files number gap target.id
  | .call callee _ arguments => callee.Fits gap ∧ Expr.ListFits gap arguments
  | .property object _ => object.Fits gap
  | .setProperty object _ value => object.Fits gap ∧ value.Fits gap
  | .self keyword => setting.Files number gap keyword.id
  | .inherited keyword _ =>
    setting.Files number gap keyword.id ∧ setting.FilesInside gap keyword.id

/-- The references of expressions mean the same in both runs. -/
def Expr.ListFits (gap : Gap) : List Expr -> Prop
  | [] => True
  | first :: rest => first.Fits gap ∧ Expr.ListFits gap rest

end

/-- The references of an expression that may be missing mean the same in both runs. -/
def Expr.OptionFits (gap : Gap) : Option Expr -> Prop
  | none => True
  | some value => value.Fits setting number gap

/-- The reference to a superclass, if there is one, means the same in both runs. -/
def Reference.OptionFits (gap : Gap) : Option Reference -> Prop
  | none => True
  | some reference => setting.Files number gap reference.id

/-- The gap as it is seen from the methods of a class. -/
def Gap.enterClass (gap : Gap) : Option Reference -> Gap
  | .none => gap
  | some _ => gap.enter

mutual

/-- The references of a statement mean the same in both runs, and it declares nothing in
a spare scope. -/
def Stmt.Fits (gap : Gap) : Stmt -> Prop
  | .expression value => value.Fits setting number gap
  | .print value => value.Fits setting number gap
  | .declare _ initializer => gap ≠ .beyond 0 ∧ Expr.OptionFits setting number gap initializer
  | .block body => Stmt.ListFits gap.enter body
  | .conditional condition thenBranch elseBranch =>
    condition.Fits setting number gap ∧ thenBranch.Fits gap ∧ Stmt.OptionFits gap elseBranch
  | .loop condition body => condition.Fits setting number gap ∧ body.Fits gap
  | .function declaration => gap ≠ .beyond 0 ∧ declaration.Fits gap
  | .returns _ value => Expr.OptionFits setting number gap value
  | .classDecl _ superclass methods =>
    gap ≠ .beyond 0 ∧ Reference.OptionFits setting number gap superclass ∧
      FunctionDecl.ListFits (gap.enterClass superclass).enter methods

/-- The references of statements mean the same in both runs. -/
def Stmt.ListFits (gap : Gap) : List Stmt -> Prop
  | [] => True
  | first :: rest => first.Fits gap ∧ Stmt.ListFits gap rest

/-- The references of a statement that may be missing mean the same in both runs. -/
def Stmt.OptionFits (gap : Gap) : Option Stmt -> Prop
  | none => True
  | some step => step.Fits gap

/-- The references of a function mean the same in both runs. -/
def FunctionDecl.Fits (gap : Gap) : FunctionDecl -> Prop
  | ⟨_, _, body⟩ => Stmt.ListFits gap.enter body

/-- The references of functions mean the same in both runs. -/
def FunctionDecl.ListFits (gap : Gap) : List FunctionDecl -> Prop
  | [] => True
  | first :: rest => first.Fits gap ∧ FunctionDecl.ListFits gap rest

end

end Fits

section Files

variable {setting : Setting} {number : Nat -> Nat} {gap : Gap}

mutual

/-- Every reference of an expression means the same. -/
theorem Expr.Fits.files :
    ∀ {value : Expr}, value.Fits setting number gap ->
      ∀ id ∈ value.ids, setting.Files number gap id
  | .literal _, _ => by
    simp [Expr.ids]
  | .grouping inner, fits => by
    rw [Expr.Fits] at fits
    rw [Expr.ids]
    exact Expr.Fits.files fits
  | .unary _ right, fits => by
    rw [Expr.Fits] at fits
    rw [Expr.ids]
    exact Expr.Fits.files fits
  | .binary left _ right, fits => by
    rw [Expr.Fits] at fits
    rw [Expr.ids, List.forall_mem_append]
    exact ⟨Expr.Fits.files fits.1, Expr.Fits.files fits.2⟩
  | .logical left _ right, fits => by
    rw [Expr.Fits] at fits
    rw [Expr.ids, List.forall_mem_append]
    exact ⟨Expr.Fits.files fits.1, Expr.Fits.files fits.2⟩
  | .read target, fits => by
    rw [Expr.Fits] at fits
    rw [Expr.ids, List.forall_mem_singleton]
    exact fits
  | .assign target value, fits => by
    rw [Expr.Fits] at fits
    rw [Expr.ids, List.forall_mem_append, List.forall_mem_singleton]
    exact ⟨Expr.Fits.files fits.1, fits.2⟩
  | .call callee _ arguments, fits => by
    rw [Expr.Fits] at fits
    rw [Expr.ids, List.forall_mem_append]
    exact ⟨Expr.Fits.files fits.1, Expr.ListFits.files fits.2⟩
  | .property object _, fits => by
    rw [Expr.Fits] at fits
    rw [Expr.ids]
    exact Expr.Fits.files fits
  | .setProperty object _ value, fits => by
    rw [Expr.Fits] at fits
    rw [Expr.ids, List.forall_mem_append]
    exact ⟨Expr.Fits.files fits.1, Expr.Fits.files fits.2⟩
  | .self keyword, fits => by
    rw [Expr.Fits] at fits
    rw [Expr.ids, List.forall_mem_singleton]
    exact fits
  | .inherited keyword _, fits => by
    rw [Expr.Fits] at fits
    rw [Expr.ids, List.forall_mem_singleton]
    exact fits.1

/-- Every reference of some expressions means the same. -/
theorem Expr.ListFits.files :
    ∀ {values : List Expr}, Expr.ListFits setting number gap values ->
      ∀ id ∈ Expr.listIds values, setting.Files number gap id
  | [], _ => by
    simp [Expr.listIds]
  | first :: rest, fits => by
    rw [Expr.ListFits] at fits
    rw [Expr.listIds, List.forall_mem_append]
    exact ⟨Expr.Fits.files fits.1, Expr.ListFits.files fits.2⟩

end

end Files

section Same

variable {setting : Setting} {number : Nat -> Nat}

mutual

/-- An expression fits without a gap when its references are filed at the same distances.
-/
theorem Expr.fits_of_same :
    ∀ value : Expr, (∀ id ∈ value.ids, setting.after[number id]? = setting.before[id]?) ->
      value.Fits setting number .none
  | .literal _, _ => by
    rw [Expr.Fits]
    trivial
  | .grouping inner, same => by
    rw [Expr.ids] at same
    rw [Expr.Fits]
    exact Expr.fits_of_same inner same
  | .unary _ right, same => by
    rw [Expr.ids] at same
    rw [Expr.Fits]
    exact Expr.fits_of_same right same
  | .binary left _ right, same => by
    rw [Expr.ids, List.forall_mem_append] at same
    rw [Expr.Fits]
    exact ⟨Expr.fits_of_same left same.1, Expr.fits_of_same right same.2⟩
  | .logical left _ right, same => by
    rw [Expr.ids, List.forall_mem_append] at same
    rw [Expr.Fits]
    exact ⟨Expr.fits_of_same left same.1, Expr.fits_of_same right same.2⟩
  | .read target, same => by
    rw [Expr.ids, List.forall_mem_singleton] at same
    rw [Expr.Fits]
    exact Setting.files_of_same same
  | .assign target value, same => by
    rw [Expr.ids, List.forall_mem_append, List.forall_mem_singleton] at same
    rw [Expr.Fits]
    exact ⟨Expr.fits_of_same value same.1, Setting.files_of_same same.2⟩
  | .call callee _ arguments, same => by
    rw [Expr.ids, List.forall_mem_append] at same
    rw [Expr.Fits]
    exact ⟨Expr.fits_of_same callee same.1, Expr.listFits_of_same arguments same.2⟩
  | .property object _, same => by
    rw [Expr.ids] at same
    rw [Expr.Fits]
    exact Expr.fits_of_same object same
  | .setProperty object _ value, same => by
    rw [Expr.ids, List.forall_mem_append] at same
    rw [Expr.Fits]
    exact ⟨Expr.fits_of_same object same.1, Expr.fits_of_same value same.2⟩
  | .self keyword, same => by
    rw [Expr.ids, List.forall_mem_singleton] at same
    rw [Expr.Fits]
    exact Setting.files_of_same same
  | .inherited keyword _, same => by
    rw [Expr.ids, List.forall_mem_singleton] at same
    rw [Expr.Fits]
    exact ⟨Setting.files_of_same same, fun _ _ => nofun⟩

/-- Expressions fit without a gap when their references are filed at the same distances.
-/
theorem Expr.listFits_of_same :
    ∀ values : List Expr,
      (∀ id ∈ Expr.listIds values, setting.after[number id]? = setting.before[id]?) ->
      Expr.ListFits setting number .none values
  | [], _ => by
    rw [Expr.ListFits]
    trivial
  | first :: rest, same => by
    rw [Expr.listIds, List.forall_mem_append] at same
    rw [Expr.ListFits]
    exact ⟨Expr.fits_of_same first same.1, Expr.listFits_of_same rest same.2⟩

end

/-- An optional expression fits without a gap when its references are filed at the same
distances. -/
theorem Expr.optionFits_of_same
    {value : Option Expr}
    (same : ∀ id ∈ Expr.optionIds value, setting.after[number id]? = setting.before[id]?) :
    Expr.OptionFits setting number .none value := by
  cases value with
  | none => trivial
  | some value => exact Expr.fits_of_same value same

mutual

/-- A statement fits without a gap when its references are filed at the same distances. -/
theorem Stmt.fits_of_same :
    ∀ step : Stmt, (∀ id ∈ step.ids, setting.after[number id]? = setting.before[id]?) ->
      step.Fits setting number .none
  | .expression value, same => by
    rw [Stmt.ids] at same
    rw [Stmt.Fits]
    exact Expr.fits_of_same value same
  | .print value, same => by
    rw [Stmt.ids] at same
    rw [Stmt.Fits]
    exact Expr.fits_of_same value same
  | .declare _ initializer, same => by
    rw [Stmt.ids] at same
    rw [Stmt.Fits]
    exact ⟨nofun, Expr.optionFits_of_same same⟩
  | .block body, same => by
    rw [Stmt.ids] at same
    rw [Stmt.Fits]
    exact Stmt.listFits_of_same body same
  | .conditional condition thenBranch elseBranch, same => by
    rw [Stmt.ids, List.forall_mem_append, List.forall_mem_append] at same
    rw [Stmt.Fits]
    exact ⟨Expr.fits_of_same condition same.1.1, Stmt.fits_of_same thenBranch same.1.2,
      Stmt.optionFits_of_same elseBranch same.2⟩
  | .loop condition body, same => by
    rw [Stmt.ids, List.forall_mem_append] at same
    rw [Stmt.Fits]
    exact ⟨Expr.fits_of_same condition same.1, Stmt.fits_of_same body same.2⟩
  | .function declaration, same => by
    rw [Stmt.ids] at same
    rw [Stmt.Fits]
    exact ⟨nofun, FunctionDecl.fits_of_same declaration same⟩
  | .returns _ value, same => by
    rw [Stmt.ids] at same
    rw [Stmt.Fits]
    exact Expr.optionFits_of_same same
  | .classDecl _ none methods, same => by
    rw [Stmt.ids, List.forall_mem_append] at same
    rw [Stmt.Fits]
    exact ⟨nofun, trivial, FunctionDecl.listFits_of_same methods same.2⟩
  | .classDecl _ (some reference) methods, same => by
    rw [Stmt.ids, List.forall_mem_append] at same
    rw [Stmt.Fits]
    exact ⟨nofun, Setting.files_of_same (same.1 _ (List.mem_singleton_self _)),
      FunctionDecl.listFits_of_same methods same.2⟩

/-- Statements fit without a gap when their references are filed at the same distances. -/
theorem Stmt.listFits_of_same :
    ∀ steps : List Stmt,
      (∀ id ∈ Stmt.listIds steps, setting.after[number id]? = setting.before[id]?) ->
      Stmt.ListFits setting number .none steps
  | [], _ => by
    rw [Stmt.ListFits]
    trivial
  | first :: rest, same => by
    rw [Stmt.listIds, List.forall_mem_append] at same
    rw [Stmt.ListFits]
    exact ⟨Stmt.fits_of_same first same.1, Stmt.listFits_of_same rest same.2⟩

/-- An optional statement fits without a gap when its references are filed at the same
distances. -/
theorem Stmt.optionFits_of_same :
    ∀ step : Option Stmt,
      (∀ id ∈ Stmt.optionIds step, setting.after[number id]? = setting.before[id]?) ->
      Stmt.OptionFits setting number .none step
  | none, _ => by
    rw [Stmt.OptionFits]
    trivial
  | some step, same => by
    rw [Stmt.optionIds] at same
    rw [Stmt.OptionFits]
    exact Stmt.fits_of_same step same

/-- A function fits without a gap when its references are filed at the same distances. -/
theorem FunctionDecl.fits_of_same :
    ∀ declaration : FunctionDecl,
      (∀ id ∈ declaration.ids, setting.after[number id]? = setting.before[id]?) ->
      declaration.Fits setting number .none
  | ⟨_, _, body⟩, same => by
    rw [FunctionDecl.ids] at same
    rw [FunctionDecl.Fits]
    exact Stmt.listFits_of_same body same

/-- Functions fit without a gap when their references are filed at the same distances. -/
theorem FunctionDecl.listFits_of_same :
    ∀ functions : List FunctionDecl,
      (∀ id ∈ FunctionDecl.listIds functions, setting.after[number id]? = setting.before[id]?) ->
      FunctionDecl.ListFits setting number .none functions
  | [], _ => by
    rw [FunctionDecl.ListFits]
    trivial
  | first :: rest, same => by
    rw [FunctionDecl.listIds, List.forall_mem_append] at same
    rw [FunctionDecl.ListFits]
    exact ⟨FunctionDecl.fits_of_same first same.1, FunctionDecl.listFits_of_same rest same.2⟩

end

end Same

end TreeWalk
