import TreeWalk.Proofs.Session.History

/-!
# Name resolution and evaluation agree on scopes

Wherever a run gets, in the program that it runs or in a function of an earlier
one, it follows the walk of name resolution over that program.  The one name that
name resolution knows too early is that of a class while its superclass is read.
-/

namespace TreeWalk
namespace Session

open Resolution

/-- Whatever part of a program a run gets to, it follows the walk of name
resolution to a site of that part: the scopes up to the globals are those of the
walk and bind the names that are defined there, and distances lead to them. -/
theorem evaluation_follows_resolution
    {session : Session}
    {roots : List Site}
    {source : String}
    {fuel : Nat}
    {task : Task}
    {machine : Machine}
    {part : Part}
    (past : History session roots)
    (accepts : session.staticErrors source = [])
    (visits : Visits fuel session.echo (session.program source) (session.ready source)
      task machine)
    (isPart : task.part? = some part) :
    ∃ root ∈ session.root source :: roots, ∃ site, root.Within site ∧ site.part = part ∧
      ∃ places, task.Follows machine root site places := by
  have located := located_root past.consistent accepts
  have isReady : task.Ready (session.root source :: roots) machine := visits.ready rfl located
  exact isReady.follows isPart

/-- A session in which nothing has run. -/
def idle : Session :=
  .fresh { reading := fun _ => 0 } {}

/-- The name of a class. -/
def ownName : Token :=
  .ofName "A" 1

/-- The superclass of that class, which is no class. -/
def ownSuperclass : Reference :=
  ⟨0, .ofName "clock" 1⟩

/-- The declaration of that class. -/
def misdeclared : Stmt :=
  .classDecl ownName (some ownSuperclass) []

/-- The source text of that declaration in a block. -/
def misdeclaredText : String :=
  "\x7b class A < clock \x7b\x7d \x7d"

/-- The grammar's derivation of the text. -/
theorem derived_misdeclared :
    Grammar.Program 0 (Scan.ofSource misdeclaredText).tokens [.block [misdeclared]] 1 := by
  have inside : Grammar.Declaration (Grammar.Expression 254) (Grammar.StatementWithin 254)
      (Grammar.BlockWithin 254) 0
      (⟨.keyword .classWord, "class", 1⟩ :: ownName ::
        ([⟨.symbol .less, "<", 1⟩, ownSuperclass.name] ++
          ⟨.symbol .leftBrace, "\x7b", 1⟩ :: ([] ++ [⟨.symbol .rightBrace, "\x7d", 1⟩])))
      misdeclared 1 :=
    .classDecl rfl rfl (.some rfl rfl) rfl .none rfl
  have block : Grammar.BlockWithin 255 0 (_ ++ [⟨.symbol .rightBrace, "\x7d", 1⟩])
      [misdeclared] 1 :=
    Grammar.Block.mk (.more .none inside) rfl
  have statement : Grammar.StatementWithin 256 false 0 (⟨.symbol .leftBrace, "\x7b", 1⟩ :: _)
      (.block [misdeclared]) 1 :=
    Grammar.Statement.block rfl block
  have derived : Grammar.Program 0 _ [.block [misdeclared]] 1 := .more .none (.statement statement)
  have scanned : (Scan.ofSource misdeclaredText).tokens =
      [⟨.symbol .leftBrace, "\x7b", 1⟩, ⟨.keyword .classWord, "class", 1⟩, ownName,
        ⟨.symbol .less, "<", 1⟩, ownSuperclass.name, ⟨.symbol .leftBrace, "\x7b", 1⟩,
        ⟨.symbol .rightBrace, "\x7d", 1⟩, ⟨.symbol .rightBrace, "\x7d", 1⟩] := by
    decide +kernel
  rw [scanned]
  exact derived

/-- The text is accepted. -/
theorem accepts_misdeclared : idle.staticErrors misdeclaredText = [] :=
  List.isEmpty_iff.mp (by decide +kernel)

/-- The program of the text. -/
theorem program_misdeclared : idle.program misdeclaredText = [.block [misdeclared]] := by
  have parsed := Parse.parseTokens_of_program derived_misdeclared
    (Scan.ofSource misdeclaredText).endToken
  exact congrArg Parsed.result parsed

/-- The machine on which the superclass is read: in the scope of the block, with
nothing bound there. -/
def insideBlock (machine : Machine) : Machine :=
  { machine with
    heap := (machine.heap.newScope (some machine.scope) .empty).2
    scope := (machine.heap.newScope (some machine.scope) .empty).1 }

/-- The run visits the read of the superclass. -/
theorem visits_misdeclared :
    Visits 3 idle.echo (idle.program misdeclaredText) (idle.ready misdeclaredText)
      (.superclass ownName ownSuperclass) (insideBlock (idle.ready misdeclaredText)) := by
  rw [program_misdeclared]
  exact .first (.further (.further (.further .start .block) .firstOfSequence) .superclass)

/-- A class in a block that inherits from a native function. -/
theorem evaluation_follows_resolution_misdeclared :
    History idle [] ∧ idle.staticErrors misdeclaredText = [] ∧
      Visits 3 idle.echo (idle.program misdeclaredText) (idle.ready misdeclaredText)
        (.superclass ownName ownSuperclass) (insideBlock (idle.ready misdeclaredText)) ∧
      ∃ root ∈ [idle.root misdeclaredText], ∃ site, root.Within site ∧
        site.part = .superclass ownSuperclass ∧ ∃ places,
          (Task.superclass ownName ownSuperclass).Follows
            (insideBlock (idle.ready misdeclaredText)) root site places :=
  have past : History idle [] := .fresh _ _
  ⟨past, accepts_misdeclared, visits_misdeclared,
    evaluation_follows_resolution past accepts_misdeclared visits_misdeclared rfl⟩

/-- While a superclass is read in a block, name resolution has the name of the
class defined there, and the scope of the block does not bind it. -/
theorem class_name_not_bound_while_superclass_is_read :
    idle.staticErrors misdeclaredText = [] ∧ ∃ task machine site,
      Visits 3 idle.echo (idle.program misdeclaredText) (idle.ready misdeclaredText)
        task machine ∧
      (idle.root misdeclaredText).Within site ∧ task.part? = some site.part ∧
      Defines site.walk.scopes "A" 0 ∧
      machine.heap.chain machine.scope = [machine.scope, machine.globals] ∧
      (machine.heap.scope machine.scope).bindings.contains "A" = false := by
  have block : (idle.root misdeclaredText).Within
      ⟨{}, .statement (.block [misdeclared]), (idle.root misdeclaredText).walk⟩ := by
    refine .step .refl ?_
    rw [root, program_misdeclared]
    exact List.mem_cons_self
  have within := ((block.step List.mem_cons_self).step List.mem_cons_self).step List.mem_cons_self
  exact ⟨accepts_misdeclared, _, _, _, visits_misdeclared, within, rfl, ⟨_, rfl, rfl⟩, rfl, rfl⟩

end Session
end TreeWalk
