import TreeWalk.Proofs.Evaluation.Faithful
import TreeWalk.Proofs.Evaluation.SpareScope

/-!
# Resolving names around a spare scope

The walk over a part of a program, in some scopes, and the walk over the same part
without one of these scopes go side by side.  As long as nothing is declared in the scope
that the second walk does without, both find the same errors and each reference means
the same variable.
-/

namespace TreeWalk

/-- Distances carried over a gap are carried one scope further in. -/
theorem Gap.Carries.succ
    {gap : Gap}
    {found other : Option Nat}
    (carries : gap.Carries found other) :
    gap.enter.Carries (found.map (· + 1)) (other.map (· + 1)) := by
  cases found with
  | none =>
    rw [Gap.Carries] at carries
    rw [carries]
    rfl
  | some distance =>
    obtain ⟨elsewhere, isOther⟩ := carries
    refine ⟨fun same => elsewhere (Gap.enter_eq_beyond.mp same), ?_⟩
    rw [isOther, Option.map_some, Gap.shift_enter_succ elsewhere]

namespace Resolution

/-- Some scopes, and the same ones without an empty scope in the place that the gap
says.  All names of the scopes around that one are defined. -/
inductive Omits : Gap -> List (Bindings Binding) -> List (Bindings Binding) -> Prop
  | same {scopes : List (Bindings Binding)} : Omits .none scopes scopes
  | here
      {outer : List (Bindings Binding)}
      (settled : ∀ scope ∈ outer, Settled scope) :
      Omits (.beyond 0) (.empty :: outer) outer
  | inside
      {gap : Gap}
      {scopes others : List (Bindings Binding)}
      (scope : Bindings Binding)
      (around : Omits gap scopes others) :
      Omits gap.enter (scope :: scopes) (scope :: others)

section Lookup

variable {gap : Gap} {scopes others : List (Bindings Binding)}

/-- The first scope that binds a name is the same one. -/
theorem Omits.findIdx?
    (omits : Omits gap scopes others)
    (name : String) :
    gap.Carries (scopes.findIdx? (·.contains name)) (others.findIdx? (·.contains name)) := by
  induction omits with
  | same =>
    rename_i scopes
    cases scopes.findIdx? (·.contains name) with
    | none => rfl
    | some distance => exact ⟨nofun, rfl⟩
  | here settled =>
    rename_i outer
    rw [List.findIdx?_cons, Bindings.contains_empty, if_neg Bool.false_ne_true]
    cases outer.findIdx? (·.contains name) with
    | none => rfl
    | some distance => exact ⟨nofun, rfl⟩
  | inside scope around inductionHypothesis =>
    rw [List.findIdx?_cons, List.findIdx?_cons]
    split
    · refine ⟨Gap.enter_ne _, ?_⟩
      rw [Gap.shift_enter_zero]
    · exact inductionHypothesis.succ

/-- The same names are bound. -/
theorem Omits.any_contains
    (omits : Omits gap scopes others)
    (name : String) :
    others.any (·.contains name) = scopes.any (·.contains name) := by
  induction omits with
  | same => rfl
  | here settled => rw [List.any_cons, Bindings.contains_empty, Bool.false_or]
  | inside scope around inductionHypothesis =>
    rw [List.any_cons, List.any_cons, inductionHypothesis]

/-- An empty scope lies where the gap says. -/
theorem Omits.getElem?
    (omits : Omits gap scopes others)
    {position : Nat}
    (isGap : gap = .beyond position) :
    scopes[position]? = some .empty := by
  induction omits generalizing position with
  | same => cases isGap
  | here settled =>
    cases isGap
    rfl
  | inside scope around inductionHypothesis =>
    cases position with
    | zero => exact absurd isGap (Gap.enter_ne _)
    | succ position =>
      rw [List.getElem?_cons_succ]
      exact inductionHypothesis (Gap.enter_eq_beyond.mp isGap)

/-- If there is no gap, the scopes are the same. -/
theorem Omits.eq_of_none
    (omits : Omits gap scopes others)
    (isGap : gap = .none) :
    others = scopes := by
  induction omits with
  | same => rfl
  | here settled => cases isGap
  | @inside gap _ _ scope around inductionHypothesis =>
    cases gap with
    | none => rw [inductionHypothesis rfl]
    | beyond position => cases isGap

/-- Where the innermost scope is the spare one, it is empty and the others are the same.
-/
theorem Omits.eq_of_innermost
    (omits : Omits gap scopes others)
    (isGap : gap = .beyond 0) :
    scopes = .empty :: others ∧ ∀ scope ∈ others, Settled scope := by
  cases omits with
  | same => cases isGap
  | here settled => exact ⟨rfl, settled⟩
  | inside scope around => exact absurd isGap (Gap.enter_ne _)

/-- Outside of a spare scope, there is no scope around the place, or the innermost one is
the same. -/
theorem Omits.innermost
    (omits : Omits gap scopes others)
    (inner : gap ≠ .beyond 0) :
    (scopes = [] ∧ others = []) ∨
      ∃ scope outer otherOuter, scopes = scope :: outer ∧ others = scope :: otherOuter ∧
        ∃ around, Omits around outer otherOuter ∧ gap = around.enter := by
  cases omits with
  | same =>
    cases scopes with
    | nil => exact .inl ⟨rfl, rfl⟩
    | cons scope outer => exact .inr ⟨scope, outer, outer, rfl, rfl, .none, .same, rfl⟩
  | here settled => exact absurd rfl inner
  | inside scope around => exact .inr ⟨scope, _, _, rfl, rfl, _, around, rfl⟩

/-- Leave the innermost scope. -/
theorem Omits.tail (omits : Omits gap.enter scopes others) : Omits gap scopes.tail others.tail := by
  generalize isGap : gap.enter = inner at omits
  cases omits with
  | same =>
    cases gap with
    | none => exact .same
    | beyond position => cases isGap
  | here settled => exact absurd isGap (Gap.enter_ne gap)
  | inside scope around =>
    rw [Gap.enter_inj isGap]
    exact around

end Lookup

/-! ## Walks side by side -/

/-- Walks that have come to the same place, the second one without the spare scope. -/
structure Beside (gap : Gap) (walk other : Resolution) : Prop where
  scopes : Omits gap walk.scopes other.scopes
  globals : other.globals = walk.globals
  errors : other.errors = walk.errors

namespace Beside

variable {gap : Gap} {walk other : Resolution} {number : Nat -> Nat}

/-- Reporting an error on both sides. -/
theorem report
    (beside : Beside gap walk other)
    (token : Token)
    (fault : StaticFault) :
    Beside gap (walk.report token fault) (other.report token fault) := by
  refine ⟨beside.scopes, beside.globals, ?_⟩
  rw [Resolution.report, Resolution.report, beside.errors]

/-- Entering a scope on both sides, the gap then being one further out. -/
theorem enter (beside : Beside gap walk other) (scope : Bindings Binding) :
    Beside gap.enter (walk.enter scope) (other.enter scope) :=
  ⟨.inside scope beside.scopes, beside.globals, beside.errors⟩

/-- Enter a scope that the other walk does without. -/
theorem enterSpare
    (beside : Beside .none walk other)
    (settled : ∀ scope ∈ walk.scopes, Settled scope) :
    Beside (.beyond 0) (walk.enter .empty) other := by
  refine ⟨?_, beside.globals, beside.errors⟩
  rw [beside.scopes.eq_of_none rfl]
  exact .here settled

/-- Leaving a scope on both sides, the gap then being one further in. -/
theorem leave (beside : Beside gap.enter walk other) : Beside gap walk.leave other.leave :=
  ⟨beside.scopes.tail, beside.globals, beside.errors⟩

/-- Leave a scope that the other walk does without. -/
theorem leaveSpare (beside : Beside (.beyond 0) walk other) : Beside .none walk.leave other := by
  refine ⟨?_, beside.globals, beside.errors⟩
  rw [Resolution.leave, (beside.scopes.eq_of_innermost rfl).1]
  exact .same

/-- Declare a name in a scope that is no spare one. -/
theorem declare
    (beside : Beside gap walk other)
    (inner : gap ≠ .beyond 0)
    (name : String) :
    Beside gap (walk.declare name) (other.declare name) := by
  unfold Resolution.declare
  rcases beside.scopes.innermost inner with
    ⟨none, otherNone⟩ | ⟨scope, outer, otherOuter, isScopes, isOthers, around, omits, rfl⟩
  · have omits := beside.scopes
    rw [none, otherNone] at omits ⊢
    dsimp only
    rw [beside.globals]
    exact ⟨omits, rfl, beside.errors⟩
  · rw [isScopes, isOthers]
    dsimp only
    split
    · exact beside
    · exact ⟨.inside _ omits, beside.globals, beside.errors⟩

/-- Define a name in a scope that is no spare one. -/
theorem define
    (beside : Beside gap walk other)
    (inner : gap ≠ .beyond 0)
    (name : String) :
    Beside gap (walk.define name) (other.define name) := by
  unfold Resolution.define
  rcases beside.scopes.innermost inner with
    ⟨none, otherNone⟩ | ⟨scope, outer, otherOuter, isScopes, isOthers, around, omits, rfl⟩
  · rw [none, otherNone]
    exact beside
  · rw [isScopes, isOthers]
    exact ⟨.inside _ omits, beside.globals, beside.errors⟩

/-- Binding a name on both sides, outside of the spare scope. -/
theorem bind
    (beside : Beside gap walk other)
    (inner : gap ≠ .beyond 0)
    (name : String) :
    Beside gap ((walk.declare name).define name) ((other.declare name).define name) :=
  (beside.declare inner name).define inner name

/-- Entering a function on both sides. -/
theorem enterFunction
    (beside : Beside gap walk other)
    (parameters : List Token) :
    Beside gap.enter (walk.enterFunction parameters) (other.enterFunction parameters) :=
  List.foldl_rel (beside.enter .empty) fun parameter _ _ _ entered =>
    entered.bind (Gap.enter_ne gap) parameter.lexeme

/-- Filing a reference on both sides. -/
theorem file
    (beside : Beside gap walk other)
    (around : Surroundings)
    (reference otherReference : Reference)
    (skip otherSkip : Nat) :
    Beside gap (walk.file around reference skip) (other.file around otherReference otherSkip) := by
  have errors : ∀ (walk : Resolution) (reference : Reference) (skip : Nat),
      (walk.file around reference skip).errors = walk.errors := by
    intro walk reference skip
    unfold Resolution.file
    split <;> rfl
  refine ⟨?_, ?_, ?_⟩
  · rw [(stays_file around reference skip walk).scopes,
      (stays_file around otherReference otherSkip other).scopes]
    exact beside.scopes
  · rw [(stays_file around reference skip walk).globals,
      (stays_file around otherReference otherSkip other).globals]
    exact beside.globals
  · rw [errors, errors]
    exact beside.errors

/-- A name is found in the same scope. -/
theorem distance?
    (beside : Beside gap walk other)
    (name : String) :
    gap.Carries (walk.distance? name 0) (other.distance? name 0) := by
  have carries := beside.scopes.findIdx? name
  simpa [Resolution.distance?] using carries

/-- Outside of the innermost scope, a name is found in the same scope. -/
theorem distance?_outside
    {scope : Bindings Binding}
    {outer otherOuter : List (Bindings Binding)}
    (isScopes : walk.scopes = scope :: outer)
    (isOthers : other.scopes = scope :: otherOuter)
    (omits : Omits gap outer otherOuter)
    (name : String) :
    gap.enter.Carries (walk.distance? name 1) (other.distance? name 1) := by
  have carries := (omits.findIdx? name).succ
  simpa [Resolution.distance?, isScopes, isOthers, Nat.add_comm] using carries

/-- What is filed for a reference in both walks. -/
theorem file_carries
    {reference : Reference}
    {skip : Nat}
    (fresh : walk.distances[reference.id]? = none)
    (otherFresh : other.distances[number reference.id]? = none)
    (around : Surroundings)
    (carries : gap.Carries (walk.distance? reference.name.lexeme skip)
      (other.distance? reference.name.lexeme skip)) :
    gap.Carries (walk.file around reference skip).distances[reference.id]?
      (other.file around (reference.renumber number) skip).distances[number reference.id]? := by
  have otherFiled :
      (other.file around (reference.renumber number) skip).distances[number reference.id]? =
        other.distance? reference.name.lexeme skip :=
    Site.getElem?_file around otherFresh skip
  rw [Site.getElem?_file around fresh, otherFiled]
  exact carries

/-- The same is filed for a name that is read, or it is the same error. -/
theorem readName_eq
    (beside : Beside gap walk other)
    (around : Surroundings)
    (reference : Reference)
    (number : Nat -> Nat) :
    (∃ skip, walk.readName around reference = walk.file around reference skip ∧
      other.readName around (reference.renumber number) =
        other.file around (reference.renumber number) skip ∧
      gap.Carries (walk.distance? reference.name.lexeme skip)
        (other.distance? reference.name.lexeme skip)) ∨
      (walk.readName around reference = walk.report reference.name .readInOwnInitializer ∧
        other.readName around (reference.renumber number) =
          other.report reference.name .readInOwnInitializer) := by
  unfold Resolution.readName
  dsimp only [Reference.name_renumber]
  -- Only one of the walks looks at the spare scope for a name that is still to be defined.
  -- The other one looks at the scope around it, where all names are defined.
  by_cases inner : gap = .beyond 0
  · obtain ⟨isScopes, settled⟩ := beside.scopes.eq_of_innermost inner
    refine .inl ⟨0, ?_, ?_, beside.distance? _⟩
    · rw [isScopes]
      dsimp only
      rw [Bindings.get?_empty, if_neg (by simp)]
    · cases isOthers : other.scopes with
      | nil => rfl
      | cons scope outer =>
        rw [isOthers] at settled
        dsimp only
        rw [if_neg (settled scope List.mem_cons_self _)]
  · rcases beside.scopes.innermost inner with
      ⟨none, otherNone⟩ | ⟨scope, outer, otherOuter, isScopes, isOthers, around, omits, rfl⟩
    · rw [none, otherNone]
      exact .inl ⟨0, rfl, rfl, beside.distance? _⟩
    · have sameBound : other.boundIn otherOuter reference.name.lexeme =
          walk.boundIn outer reference.name.lexeme := by
        rw [boundIn, boundIn, omits.any_contains, beside.globals]
      rw [isScopes, isOthers]
      dsimp only
      rw [sameBound]
      split
      · split
        · exact .inl ⟨1, rfl, rfl, distance?_outside isScopes isOthers omits _⟩
        · exact .inr ⟨rfl, rfl⟩
      · exact .inl ⟨0, rfl, rfl, beside.distance? _⟩

/-- Reading a name on both sides. -/
theorem readName
    (beside : Beside gap walk other)
    (around : Surroundings)
    (reference : Reference)
    (number : Nat -> Nat) :
    Beside gap (walk.readName around reference)
      (other.readName around (reference.renumber number)) := by
  rcases beside.readName_eq around reference number with
    ⟨skip, isFiled, otherIsFiled, -⟩ | ⟨isReported, otherIsReported⟩
  · rw [isFiled, otherIsFiled]
    exact beside.file around _ _ _ _
  · rw [isReported, otherIsReported]
    exact beside.report _ _

/-- Reading the receiver on both sides. -/
theorem readSelf
    (beside : Beside gap walk other)
    (around : Surroundings)
    (keyword : Reference)
    (number : Nat -> Nat) :
    Beside gap (walk.readSelf around keyword)
      (other.readSelf around (keyword.renumber number)) := by
  unfold Resolution.readSelf
  split
  · exact beside.report _ _
  · exact beside.file around _ _ _ _
  · exact beside.file around _ _ _ _

/-- Reading the superclass on both sides. -/
theorem readInherited
    (beside : Beside gap walk other)
    (around : Surroundings)
    (keyword : Reference)
    (number : Nat -> Nat) :
    Beside gap (walk.readInherited around keyword)
      (other.readInherited around (keyword.renumber number)) := by
  unfold Resolution.readInherited
  split
  · exact beside.report _ _
  · exact beside.report _ _
  · exact beside.file around _ _ _ _

/-- A class that inherits from itself is reported on both sides. -/
theorem checkSuperclass
    (beside : Beside gap walk other)
    (name : Token)
    (superclass : Reference)
    (number : Nat -> Nat) :
    Beside gap (walk.checkSuperclass name superclass)
      (other.checkSuperclass name (superclass.renumber number)) := by
  unfold Resolution.checkSuperclass
  rw [Reference.name_renumber]
  split
  · exact beside.report _ _
  · exact beside

end Beside

end Resolution

/-! ## Filed references -/

/-- A table has the distances that the walk over a part files.  The references of the
part have different numbers, under which nothing was filed before. -/
structure Site.Filed (distances : Distances) (site : Site) : Prop where
  distinct : site.part.ids.Nodup
  fresh : ∀ id ∈ site.part.ids, site.walk.distances[id]? = none
  filed : ∀ id ∈ site.part.ids, distances[id]? = site.outcome.distances[id]?

/-- The parts of a filed part are filed. -/
theorem Site.Filed.child
    {distances : Distances}
    {site child : Site}
    (filed : site.Filed distances)
    (isChild : child ∈ site.children) :
    child.Filed distances := by
  obtain ⟨before, after, covers⟩ := (Site.child_of_mem_children isChild).covers
  have split := covers.ids.nodup_iff.mpr filed.distinct
  rw [List.nodup_append, List.nodup_append] at split
  refine ⟨split.2.1.1, fun id member => ?_, fun id member => ?_⟩
  · obtain ⟨notBefore, -, inside⟩ := covers.disjoint filed.distinct member
    rw [covers.reached.distances id notBefore]
    exact filed.fresh id inside
  · obtain ⟨-, notAfter, inside⟩ := covers.disjoint filed.distinct member
    rw [filed.filed id inside, covers.left.distances id notAfter]

/-- A charted part is filed. -/
theorem Charted.filed
    {roots : List Site}
    {distances : Distances}
    {site : Site}
    (charted : Charted roots distances site) :
    site.Filed distances := by
  have sound := charted.sound
  obtain ⟨root, -, rootSound, -, within, filed⟩ := charted
  refine ⟨sound.distinct, sound.fresh, fun id member => ?_⟩
  rw [filed id member, (within.filed rootSound member).1]

/-- Around a statement, all names are defined. -/
theorem Charted.settled
    {roots : List Site}
    {distances : Distances}
    {around : Surroundings}
    {step : Stmt}
    {walk : Resolution}
    (charted : Charted roots distances ⟨around, .statement step, walk⟩) :
    ∀ scope ∈ walk.scopes, Resolution.Settled scope := by
  obtain ⟨root, -, sound, outermost, within, -⟩ := charted
  cases within.standing sound outermost with
  | calm scopes => exact fun scope => scopes.settled
  | initializing isExpression => cases isExpression

/-- A reference means the same if what is filed for it at two sites does. -/
theorem Site.Filed.files
    {setting : Setting}
    {number : Nat -> Nat}
    {gap : Gap}
    {site otherSite : Site}
    {id : Nat}
    (filed : site.Filed setting.before)
    (otherFiled : otherSite.Filed setting.after)
    (member : id ∈ site.part.ids)
    (otherMember : number id ∈ otherSite.part.ids)
    (carries :
      site.walk.distances[id]? = none ->
      otherSite.walk.distances[number id]? = none ->
      gap.Carries site.outcome.distances[id]? otherSite.outcome.distances[number id]?) :
    setting.Files number gap id := by
  rw [Setting.Files, filed.filed id member, otherFiled.filed _ otherMember]
  exact carries (filed.fresh id member) (otherFiled.fresh _ otherMember)

namespace Resolution

section Walks

variable
  {roots : List Site}
  {setting : Setting}
  {number : Nat -> Nat}
  {gap : Gap}
  {walk other : Resolution}
  {around : Surroundings}

/-- A name that is read means the same variable. -/
theorem files_readName
    {reference : Reference}
    (fresh : walk.distances[reference.id]? = none)
    (otherFresh : other.distances[number reference.id]? = none)
    (beside : Beside gap walk other) :
    gap.Carries (walk.readName around reference).distances[reference.id]?
      (other.readName around (reference.renumber number)).distances[number reference.id]? := by
  rcases beside.readName_eq around reference number with
    ⟨skip, isFiled, otherIsFiled, carries⟩ | ⟨isReported, otherIsReported⟩
  · rw [isFiled, otherIsFiled]
    exact Beside.file_carries fresh otherFresh around carries
  · rw [isReported, otherIsReported, report, report, fresh, otherFresh]
    rfl

/-- The receiver is the same. -/
theorem files_readSelf
    {keyword : Reference}
    (fresh : walk.distances[keyword.id]? = none)
    (otherFresh : other.distances[number keyword.id]? = none)
    (beside : Beside gap walk other) :
    gap.Carries (walk.readSelf around keyword).distances[keyword.id]?
      (other.readSelf around (keyword.renumber number)).distances[number keyword.id]? := by
  have filed := Beside.file_carries fresh otherFresh around (beside.distance? keyword.name.lexeme)
  unfold readSelf
  split
  · rw [report, report, fresh, otherFresh]
    rfl
  · exact filed
  · exact filed

/-- The superclass is the same. -/
theorem files_readInherited
    {keyword : Reference}
    (fresh : walk.distances[keyword.id]? = none)
    (otherFresh : other.distances[number keyword.id]? = none)
    (beside : Beside gap walk other) :
    gap.Carries (walk.readInherited around keyword).distances[keyword.id]?
      (other.readInherited around (keyword.renumber number)).distances[number keyword.id]? := by
  unfold readInherited
  split
  · rw [report, report, fresh, otherFresh]
    rfl
  · rw [report, report, fresh, otherFresh]
    rfl
  · exact Beside.file_carries fresh otherFresh around (beside.distance? keyword.name.lexeme)

/-- The receiver is bound just inside of the superclass, so there is no spare scope
between the two. -/
theorem filesInside_inherited
    {keyword : Reference}
    {method : Token}
    (charted : Charted roots setting.before
      ⟨around, .expression (.inherited keyword method), walk⟩)
    (omits : Omits gap walk.scopes other.scopes) :
    setting.FilesInside gap keyword.id := by
  intro distance found isGap
  obtain ⟨root, -, sound, outermost, within, filed⟩ := charted
  have member : keyword.id ∈ (Part.expression (.inherited keyword method)).ids := by
    simp [Part.ids, Expr.ids]
  rw [filed _ member] at found
  obtain ⟨-, -, scope, isScope, defined⟩ :=
    Site.defines_of_inherited within sound outermost found
  rw [omits.getElem? isGap, Option.some_inj] at isScope
  rw [← isScope, Bindings.get?_empty] at defined
  cases defined

mutual

/-- The walks over an expression stay side by side, and its references mean the same. -/
theorem beside_expression :
    ∀ (value : Expr) {walk other : Resolution},
      Charted roots setting.before ⟨around, .expression value, walk⟩ ->
      Site.Filed setting.after ⟨around, .expression (value.renumber number), other⟩ ->
      Beside gap walk other ->
      Beside gap (expression around value walk)
          (expression around (value.renumber number) other) ∧
        value.Fits setting number gap
  | .literal _, _, _, _, _, beside => by
    rw [Expr.renumber, Expr.Fits, expression, expression]
    exact ⟨beside, trivial⟩
  | .grouping inner, _, _, charted, filed, beside => by
    rw [Expr.renumber] at filed ⊢
    rw [Expr.Fits, expression, expression]
    exact beside_expression inner (charted.child List.mem_cons_self)
      (filed.child List.mem_cons_self) beside
  | .unary _ right, _, _, charted, filed, beside => by
    rw [Expr.renumber] at filed ⊢
    rw [Expr.Fits, expression, expression]
    exact beside_expression right (charted.child List.mem_cons_self)
      (filed.child List.mem_cons_self) beside
  | .binary left _ right, _, _, charted, filed, beside => by
    rw [Expr.renumber] at filed ⊢
    rw [Expr.Fits, expression, expression]
    obtain ⟨middle, leftFits⟩ := beside_expression left (charted.child List.mem_cons_self)
      (filed.child List.mem_cons_self) beside
    obtain ⟨last, rightFits⟩ := beside_expression right
      (charted.child (List.mem_cons_of_mem _ List.mem_cons_self))
      (filed.child (List.mem_cons_of_mem _ List.mem_cons_self)) middle
    exact ⟨last, leftFits, rightFits⟩
  | .logical left _ right, _, _, charted, filed, beside => by
    rw [Expr.renumber] at filed ⊢
    rw [Expr.Fits, expression, expression]
    obtain ⟨middle, leftFits⟩ := beside_expression left (charted.child List.mem_cons_self)
      (filed.child List.mem_cons_self) beside
    obtain ⟨last, rightFits⟩ := beside_expression right
      (charted.child (List.mem_cons_of_mem _ List.mem_cons_self))
      (filed.child (List.mem_cons_of_mem _ List.mem_cons_self)) middle
    exact ⟨last, leftFits, rightFits⟩
  | .read target, walk, other, charted, filed, beside => by
    have files : setting.Files number gap target.id := by
      refine charted.filed.files filed (by simp [Part.ids, Expr.ids])
        (by simp [Part.ids, Expr.renumber, Expr.ids, Reference.renumber])
        fun fresh otherFresh => ?_
      rw [Site.outcome, Site.outcome, Expr.renumber, expression, expression]
      exact files_readName fresh otherFresh beside
    rw [Expr.renumber, Expr.Fits, expression, expression]
    exact ⟨beside.readName around target number, files⟩
  | .assign target value, walk, other, charted, filed, beside => by
    have filed' := filed
    rw [Expr.renumber] at filed'
    obtain ⟨last, valueFits⟩ := beside_expression value (charted.child List.mem_cons_self)
      (filed'.child List.mem_cons_self) beside
    have files : setting.Files number gap target.id := by
      refine charted.filed.files filed (by simp [Part.ids, Expr.ids])
        (by simp [Part.ids, Expr.renumber, Expr.ids, Reference.renumber])
        fun fresh otherFresh => ?_
      -- The target is no reference of the value, so nothing is filed for it there.
      have apart := charted.filed.distinct
      have otherApart := filed'.distinct
      rw [Part.ids, Expr.ids, List.nodup_append] at apart otherApart
      rw [Site.outcome, Site.outcome, Expr.renumber, expression, expression]
      refine Beside.file_carries ?_ ?_ around (last.distance? target.name.lexeme)
      · rw [(adds_expression around value walk).distances _ fun inside =>
          apart.2.2 _ inside _ (List.mem_singleton_self _) rfl]
        exact fresh
      · have outside : number target.id ∉ (value.renumber number).ids := fun inside =>
          otherApart.2.2 _ inside _ (List.mem_singleton_self _) rfl
        rw [(adds_expression around (value.renumber number) other).distances _ outside]
        exact otherFresh
    rw [Expr.renumber, Expr.Fits, expression, expression]
    exact ⟨last.file around _ _ _ _, valueFits, files⟩
  | .call callee _ arguments, _, _, charted, filed, beside => by
    rw [Expr.renumber] at filed ⊢
    rw [Expr.Fits, expression, expression]
    obtain ⟨middle, calleeFits⟩ := beside_expression callee (charted.child List.mem_cons_self)
      (filed.child List.mem_cons_self) beside
    obtain ⟨last, argumentsFit⟩ := beside_expressions arguments
      (charted.child (List.mem_cons_of_mem _ List.mem_cons_self))
      (filed.child (List.mem_cons_of_mem _ List.mem_cons_self)) middle
    exact ⟨last, calleeFits, argumentsFit⟩
  | .property object _, _, _, charted, filed, beside => by
    rw [Expr.renumber] at filed ⊢
    rw [Expr.Fits, expression, expression]
    exact beside_expression object (charted.child List.mem_cons_self)
      (filed.child List.mem_cons_self) beside
  | .setProperty object _ value, _, _, charted, filed, beside => by
    rw [Expr.renumber] at filed ⊢
    rw [Expr.Fits, expression, expression]
    obtain ⟨middle, valueFits⟩ := beside_expression value (charted.child List.mem_cons_self)
      (filed.child List.mem_cons_self) beside
    obtain ⟨last, objectFits⟩ := beside_expression object
      (charted.child (List.mem_cons_of_mem _ List.mem_cons_self))
      (filed.child (List.mem_cons_of_mem _ List.mem_cons_self)) middle
    exact ⟨last, objectFits, valueFits⟩
  | .self keyword, _, _, charted, filed, beside => by
    have files : setting.Files number gap keyword.id := by
      refine charted.filed.files filed (by simp [Part.ids, Expr.ids])
        (by simp [Part.ids, Expr.renumber, Expr.ids, Reference.renumber])
        fun fresh otherFresh => ?_
      rw [Site.outcome, Site.outcome, Expr.renumber, expression, expression]
      exact files_readSelf fresh otherFresh beside
    rw [Expr.renumber, Expr.Fits, expression, expression]
    exact ⟨beside.readSelf around keyword number, files⟩
  | .inherited keyword method, _, _, charted, filed, beside => by
    have files : setting.Files number gap keyword.id := by
      refine charted.filed.files filed (by simp [Part.ids, Expr.ids])
        (by simp [Part.ids, Expr.renumber, Expr.ids, Reference.renumber])
        fun fresh otherFresh => ?_
      rw [Site.outcome, Site.outcome, Expr.renumber, expression, expression]
      exact files_readInherited fresh otherFresh beside
    rw [Expr.renumber, Expr.Fits, expression, expression]
    exact ⟨beside.readInherited around keyword number, files,
      filesInside_inherited charted beside.scopes⟩

/-- The walks over expressions stay side by side, and their references mean the same. -/
theorem beside_expressions :
    ∀ (values : List Expr) {walk other : Resolution},
      Charted roots setting.before ⟨around, .expressions values, walk⟩ ->
      Site.Filed setting.after ⟨around, .expressions (Expr.listRenumber number values), other⟩ ->
      Beside gap walk other ->
      Beside gap (expressions around values walk)
          (expressions around (Expr.listRenumber number values) other) ∧
        Expr.ListFits setting number gap values
  | [], _, _, _, _, beside => by
    rw [Expr.listRenumber, Expr.ListFits, expressions, expressions]
    exact ⟨beside, trivial⟩
  | first :: rest, _, _, charted, filed, beside => by
    rw [Expr.listRenumber] at filed ⊢
    rw [Expr.ListFits, expressions, expressions]
    obtain ⟨middle, firstFits⟩ := beside_expression first (charted.child List.mem_cons_self)
      (filed.child List.mem_cons_self) beside
    obtain ⟨last, restFits⟩ := beside_expressions rest
      (charted.child (List.mem_cons_of_mem _ List.mem_cons_self))
      (filed.child (List.mem_cons_of_mem _ List.mem_cons_self)) middle
    exact ⟨last, firstFits, restFits⟩

end

/-- The walks over an expression that may be missing stay side by side. -/
theorem beside_ofOption
    {value : Option Expr}
    (charted : ∀ site ∈ Site.ofOption around value walk, Charted roots setting.before site)
    (filed : ∀ site ∈ Site.ofOption around (Expr.optionRenumber number value) other,
      site.Filed setting.after)
    (beside : Beside gap walk other) :
    Beside gap (optionalExpression around value walk)
        (optionalExpression around (Expr.optionRenumber number value) other) ∧
      Expr.OptionFits setting number gap value := by
  cases value with
  | none => exact ⟨beside, trivial⟩
  | some value =>
    exact beside_expression value (charted _ List.mem_cons_self) (filed _ List.mem_cons_self)
      beside

mutual

/-- The walks over a statement that declares nothing in a spare scope stay side by side,
and its references mean the same. -/
theorem beside_statement :
    ∀ (step : Stmt) {around : Surroundings} {gap : Gap} {walk other : Resolution},
      (gap = .beyond 0 -> step.declaredName? = none) ->
      Charted roots setting.before ⟨around, .statement step, walk⟩ ->
      Site.Filed setting.after ⟨around, .statement (step.renumber number), other⟩ ->
      Beside gap walk other ->
      Beside gap (statement around step walk) (statement around (step.renumber number) other) ∧
        step.Fits setting number gap
  | .expression value, _, _, _, _, _, charted, filed, beside => by
    rw [Stmt.renumber] at filed ⊢
    rw [Stmt.Fits, statement, statement]
    exact beside_expression value (charted.child List.mem_cons_self)
      (filed.child List.mem_cons_self) beside
  | .print value, _, _, _, _, _, charted, filed, beside => by
    rw [Stmt.renumber] at filed ⊢
    rw [Stmt.Fits, statement, statement]
    exact beside_expression value (charted.child List.mem_cons_self)
      (filed.child List.mem_cons_self) beside
  | .declare name initializer, _, _, _, _, nothing, charted, filed, beside => by
    have inner : _ ≠ Gap.beyond 0 := fun isGap => nomatch nothing isGap
    rw [Stmt.renumber] at filed ⊢
    rw [Stmt.Fits, statement, statement]
    obtain ⟨last, initializerFits⟩ := beside_ofOption (fun _ => charted.child)
      (fun _ => filed.child) (beside.declare inner name.lexeme)
    exact ⟨last.define inner name.lexeme, inner, initializerFits⟩
  | .block body, _, _, _, _, _, charted, filed, beside => by
    rw [Stmt.renumber] at filed ⊢
    rw [Stmt.Fits, statement, statement]
    obtain ⟨last, bodyFits⟩ := beside_statements body (Gap.enter_ne _)
      (charted.child List.mem_cons_self) (filed.child List.mem_cons_self) (beside.enter .empty)
    exact ⟨last.leave, bodyFits⟩
  | .conditional condition thenBranch elseBranch, _, _, _, _, _, charted, filed, beside => by
    have form := charted.wellFormed
    rw [Part.WellFormed, Stmt.WellFormed] at form
    rw [Stmt.renumber] at filed ⊢
    rw [Stmt.Fits, statement, statement]
    obtain ⟨tested, conditionFits⟩ := beside_expression condition
      (charted.child List.mem_cons_self) (filed.child List.mem_cons_self) beside
    obtain ⟨middle, thenFits⟩ := beside_statement thenBranch (fun _ => form.2.1.1)
      (charted.child (List.mem_cons_of_mem _ List.mem_cons_self))
      (filed.child (List.mem_cons_of_mem _ List.mem_cons_self)) tested
    cases elseBranch with
    | none =>
      rw [Stmt.OptionFits]
      exact ⟨middle, conditionFits, thenFits, trivial⟩
    | some branch =>
      rw [Stmt.optionRenumber] at filed ⊢
      rw [Stmt.OptionWellFormed] at form
      rw [Stmt.OptionFits, optionalStatement, optionalStatement]
      obtain ⟨last, elseFits⟩ := beside_statement branch (fun _ => form.2.2.1)
        (charted.child (List.mem_cons_of_mem _ (List.mem_cons_of_mem _ List.mem_cons_self)))
        (filed.child (List.mem_cons_of_mem _ (List.mem_cons_of_mem _ List.mem_cons_self))) middle
      exact ⟨last, conditionFits, thenFits, elseFits⟩
  | .loop condition body, _, _, _, _, _, charted, filed, beside => by
    have form := charted.wellFormed
    rw [Part.WellFormed, Stmt.WellFormed] at form
    rw [Stmt.renumber] at filed ⊢
    rw [Stmt.Fits, statement, statement]
    obtain ⟨tested, conditionFits⟩ := beside_expression condition
      (charted.child List.mem_cons_self) (filed.child List.mem_cons_self) beside
    obtain ⟨last, bodyFits⟩ := beside_statement body (fun _ => form.2.1)
      (charted.child (List.mem_cons_of_mem _ List.mem_cons_self))
      (filed.child (List.mem_cons_of_mem _ List.mem_cons_self)) tested
    exact ⟨last, conditionFits, bodyFits⟩
  | .function ⟨name, parameters, body⟩, _, _, _, _, nothing, charted, filed, beside => by
    have inner : _ ≠ Gap.beyond 0 := fun isGap => nomatch nothing isGap
    rw [Stmt.renumber] at filed ⊢
    rw [Stmt.Fits, statement, statement]
    obtain ⟨last, functionFits⟩ := beside_function ⟨name, parameters, body⟩
      (charted.child List.mem_cons_self) (filed.child List.mem_cons_self)
      (beside.bind inner name.lexeme)
    exact ⟨last, inner, functionFits⟩
  | .returns keyword value, _, _, _, _, _, charted, filed, beside => by
    rw [Stmt.renumber] at filed ⊢
    rw [Stmt.Fits, statement, statement]
    refine beside_ofOption (fun _ => charted.child) (fun _ => filed.child) ?_
    split
    · exact beside.report _ _
    · exact beside
  | .classDecl name none methods, _, _, _, _, nothing, charted, filed, beside => by
    have inner : _ ≠ Gap.beyond 0 := fun isGap => nomatch nothing isGap
    rw [Stmt.renumber, Option.map_none] at filed ⊢
    rw [Stmt.Fits, statement, statement]
    obtain ⟨last, methodsFit⟩ := beside_methods methods (charted.child List.mem_cons_self)
      (filed.child List.mem_cons_self) ((beside.bind inner name.lexeme).enter _)
    exact ⟨last.leave, inner, trivial, methodsFit⟩
  | .classDecl name (some reference) methods, _, _, _, _, nothing, charted, filed, beside => by
    have inner : _ ≠ Gap.beyond 0 := fun isGap => nomatch nothing isGap
    rw [Stmt.renumber, Option.map_some] at filed ⊢
    rw [Stmt.Fits, statement, statement]
    have checked := (beside.bind inner name.lexeme).checkSuperclass name reference number
    have files := (charted.child List.mem_cons_self).filed.files (filed.child List.mem_cons_self)
      (List.mem_singleton_self _) (List.mem_singleton_self _)
      fun fresh otherFresh => files_readName fresh otherFresh checked
    obtain ⟨last, methodsFit⟩ := beside_methods methods
      (charted.child (List.mem_cons_of_mem _ List.mem_cons_self))
      (filed.child (List.mem_cons_of_mem _ List.mem_cons_self))
      (((checked.readName _ reference number).enter _).enter _)
    exact ⟨last.leave.leave, inner, files, methodsFit⟩

/-- The walks over statements stay side by side, and their references mean the same. -/
theorem beside_statements :
    ∀ (steps : List Stmt) {around : Surroundings} {gap : Gap} {walk other : Resolution},
      gap ≠ .beyond 0 ->
      Charted roots setting.before ⟨around, .statements steps, walk⟩ ->
      Site.Filed setting.after ⟨around, .statements (Stmt.listRenumber number steps), other⟩ ->
      Beside gap walk other ->
      Beside gap (statements around steps walk)
          (statements around (Stmt.listRenumber number steps) other) ∧
        Stmt.ListFits setting number gap steps
  | [], _, _, _, _, _, _, _, beside => by
    rw [Stmt.listRenumber, Stmt.ListFits, statements, statements]
    exact ⟨beside, trivial⟩
  | first :: rest, _, _, _, _, inner, charted, filed, beside => by
    rw [Stmt.listRenumber] at filed ⊢
    rw [Stmt.ListFits, statements, statements]
    obtain ⟨middle, firstFits⟩ := beside_statement first (fun isGap => absurd isGap inner)
      (charted.child List.mem_cons_self) (filed.child List.mem_cons_self) beside
    obtain ⟨last, restFits⟩ := beside_statements rest inner
      (charted.child (List.mem_cons_of_mem _ List.mem_cons_self))
      (filed.child (List.mem_cons_of_mem _ List.mem_cons_self)) middle
    exact ⟨last, firstFits, restFits⟩

/-- The walks over a function stay side by side, and its references mean the same. -/
theorem beside_function :
    ∀ (declaration : FunctionDecl) {around : Surroundings} {gap : Gap} {walk other : Resolution},
      Charted roots setting.before ⟨around, .function declaration, walk⟩ ->
      Site.Filed setting.after ⟨around, .function (declaration.renumber number), other⟩ ->
      Beside gap walk other ->
      Beside gap (function around declaration walk)
          (function around (declaration.renumber number) other) ∧
        declaration.Fits setting number gap
  | ⟨_, parameters, body⟩, _, _, _, _, charted, filed, beside => by
    rw [FunctionDecl.renumber] at filed ⊢
    rw [FunctionDecl.Fits, function, function]
    obtain ⟨last, bodyFits⟩ := beside_statements body (Gap.enter_ne _)
      (charted.child List.mem_cons_self) (filed.child List.mem_cons_self)
      (beside.enterFunction parameters)
    exact ⟨last.leave, bodyFits⟩

/-- The walks over methods stay side by side, and their references mean the same. -/
theorem beside_methods :
    ∀ (declarations : List FunctionDecl)
      {around : Surroundings} {gap : Gap} {walk other : Resolution},
      Charted roots setting.before ⟨around, .methods declarations, walk⟩ ->
      Site.Filed setting.after
        ⟨around, .methods (FunctionDecl.listRenumber number declarations), other⟩ ->
      Beside gap walk other ->
      Beside gap (methods around declarations walk)
          (methods around (FunctionDecl.listRenumber number declarations) other) ∧
        FunctionDecl.ListFits setting number gap declarations
  | [], _, _, _, _, _, _, beside => by
    rw [FunctionDecl.listRenumber, FunctionDecl.ListFits, methods, methods]
    exact ⟨beside, trivial⟩
  | ⟨name, parameters, body⟩ :: rest, _, _, _, _, charted, filed, beside => by
    rw [FunctionDecl.listRenumber] at filed ⊢
    rw [FunctionDecl.ListFits, methods, methods]
    obtain ⟨middle, firstFits⟩ := beside_function ⟨name, parameters, body⟩
      (charted.child List.mem_cons_self) (filed.child List.mem_cons_self) beside
    obtain ⟨last, restFits⟩ := beside_methods rest
      (charted.child (List.mem_cons_of_mem _ List.mem_cons_self))
      (filed.child (List.mem_cons_of_mem _ List.mem_cons_self)) middle
    exact ⟨last, firstFits, restFits⟩

end

end Walks

end Resolution
end TreeWalk
