import TreeWalk.Proofs.Resolution.Site
import TreeWalk.Proofs.Spelling

/-!
# Resolving a program that is spelled anew

The walk over a program and the walk over the program spelled anew go side by
side.  At corresponding places their scopes bind the same names, spelled anew in
the chosen scopes, so that they file the same distances.  The name that is put in
place of another one must not occur in the program before.
-/

namespace TreeWalk

namespace NamePair

variable {pair : NamePair} {name other : String} {mark further : Bool}

/-- A name that may occur where the two names are exchanged: it is not the new
one, unless the two are the same. -/
def Spares (pair : NamePair) (name : String) : Prop :=
  name = pair.old ∨ pair.exchange name = name

/-- A name that is none of the two, before and after, is not exchanged. -/
theorem Spares.exchange_eq
    (spares : pair.Spares name)
    (exchanged : pair.Spares (pair.exchange name)) :
    pair.exchange name = name := by
  rcases spares with isOld | same
  · rcases exchanged with otherIsOld | sameAgain
    · rw [otherIsOld, isOld]
    · rw [exchange_exchange] at sameAgain
      exact sameAgain.symm
  · exact same

/-- A name that is none of the two, before and after, is not changed in any scope. -/
theorem Spares.name_eq
    (spares : pair.Spares name)
    (exchanged : pair.Spares (pair.name mark name)) :
    pair.name mark name = name := by
  cases mark with
  | false => rfl
  | true => exact spares.exchange_eq exchanged

/-- Under the spellings of two scopes, a name comes back to itself or to one that
may not occur. -/
theorem Spares.name_name_eq
    (spares : pair.Spares name)
    (exchanged : pair.Spares (pair.name mark (pair.name further name))) :
    pair.name mark (pair.name further name) = name := by
  by_cases same : mark = further
  · rw [same, name_name]
  · cases mark with
    | false => exact spares.name_eq exchanged
    | true =>
      cases further with
      | false => exact spares.exchange_eq exchanged
      | true => exact absurd rfl same

end NamePair

namespace Resolution

variable {pair : NamePair} {chosen : List Bool}

/-- Scopes with the same names, spelled anew where they are chosen. -/
inductive ScopesAlike (pair : NamePair) :
    List Bool -> List (Bindings Binding) -> List (Bindings Binding) -> Prop
  | outermost : ScopesAlike pair [] [] []
  | inside
      {chosen : List Bool}
      {scopes others : List (Bindings Binding)}
      (mark : Bool)
      {scope : Bindings Binding}
      (spared : ∀ name, scope.contains name = true -> pair.Spares name)
      (around : ScopesAlike pair chosen scopes others) :
      ScopesAlike pair (mark :: chosen) (scope :: scopes) (scope.rename (pair.name mark) :: others)

/-- What a scope that is spelled anew binds a name to. -/
theorem get?_renamed (scope : Bindings Binding) (mark : Bool) (name : String) :
    (scope.rename (pair.name mark)).get? name = scope.get? (pair.name mark name) := by
  have found := Bindings.get?_rename (pair.name_injective mark) scope (pair.name mark name)
  rwa [NamePair.name_name] at found

/-- A renamed scope has a name when the scope has the exchanged one. -/
theorem contains_renamed (scope : Bindings Binding) (mark : Bool) (name : String) :
    (scope.rename (pair.name mark)).contains name = scope.contains (pair.name mark name) := by
  rw [Bindings.contains, Bindings.contains, get?_renamed]

/-- In a scope that is spelled anew, a name under the spelling of any scope stands
for itself only. -/
theorem contains_of_contains_renamed
    {scope : Bindings Binding}
    {mark further : Bool}
    {name : String}
    (spared : ∀ name, scope.contains name = true -> pair.Spares name)
    (spares : pair.Spares name)
    (bound : (scope.rename (pair.name mark)).contains (pair.name further name) = true) :
    pair.name mark (pair.name further name) = name := by
  rw [contains_renamed] at bound
  exact spares.name_name_eq (spared _ bound)

/-- Alike scopes stay so from any depth outwards. -/
theorem ScopesAlike.drop
    {scopes others : List (Bindings Binding)}
    (alike : ScopesAlike pair chosen scopes others)
    (skip : Nat) :
    ScopesAlike pair (chosen.drop skip) (scopes.drop skip) (others.drop skip) := by
  induction alike generalizing skip with
  | outermost =>
    rw [List.drop_nil, List.drop_nil]
    exact .outermost
  | inside mark spared around inductionHypothesis =>
    cases skip with
    | zero => exact .inside mark spared around
    | succ skip => exact inductionHypothesis skip

/-- A name, under the spelling of the scope that binds it, is found in the same
place. -/
theorem ScopesAlike.findIdx?
    {scopes others : List (Bindings Binding)}
    (alike : ScopesAlike pair chosen scopes others)
    {name : String}
    (spares : pair.Spares name)
    {further : Bool}
    (reached : ∀ index, scopes.findIdx? (·.contains name) = some index ->
      further = chosen.getD index false) :
    others.findIdx? (·.contains (pair.name further name)) =
      scopes.findIdx? (·.contains name) := by
  induction alike with
  | outermost => rfl
  | @inside chosen scopes others mark scope spared around inductionHypothesis =>
    rw [List.findIdx?_cons] at reached
    rw [List.findIdx?_cons, List.findIdx?_cons]
    cases bound : scope.contains name with
    | true =>
      have isMark : further = mark := reached 0 (by rw [bound]; rfl)
      rw [isMark, contains_renamed, NamePair.name_name, bound]
      rfl
    | false =>
      rw [bound] at reached
      have absent : (scope.rename (pair.name mark)).contains (pair.name further name) = false := by
        rw [Bool.eq_false_iff]
        intro found
        have same := contains_of_contains_renamed spared spares found
        rw [contains_renamed, same, bound] at found
        cases found
      rw [absent, if_neg Bool.false_ne_true, if_neg Bool.false_ne_true,
        inductionHypothesis fun index found => ?_]
      exact reached (index + 1) (by simp [found])

/-- A name and its respelling are found at the same distance, if the scope found there
decides the respelling. -/
theorem distance?_respelled
    {walk other : Resolution}
    (alike : ScopesAlike pair chosen walk.scopes other.scopes)
    {name : String}
    (spares : pair.Spares name)
    {further : Bool}
    (skip : Nat)
    (reached : ∀ distance, walk.distance? name skip = some distance ->
      further = chosen.getD distance false) :
    other.distance? (pair.name further name) skip = walk.distance? name skip := by
  rw [distance?, distance?, (alike.drop skip).findIdx? spares fun index found => ?_]
  have isMark := reached (skip + index) (by rw [distance?, found]; rfl)
  rw [isMark, List.getD_eq_getElem?_getD, List.getD_eq_getElem?_getD, List.getElem?_drop]

/-- A scope that does not bind a name may be skipped. -/
theorem distance?_skip
    {walk : Resolution}
    {scope : Bindings Binding}
    {outer : List (Bindings Binding)}
    {name : String}
    (scopes : walk.scopes = scope :: outer)
    (absent : scope.contains name = false) :
    walk.distance? name 0 = walk.distance? name 1 := by
  rw [distance?, distance?, scopes, List.drop_zero, List.findIdx?_cons, absent,
    if_neg Bool.false_ne_true, Option.map_map, List.drop_one, List.tail_cons]
  congr 1
  funext index
  dsimp only [Function.comp_apply]
  omega

/-- The innermost scope binds one name more. -/
theorem ScopesAlike.bindInner
    {mark : Bool}
    {scope : Bindings Binding}
    {scopes others : List (Bindings Binding)}
    {name : String}
    (spared : ∀ name, scope.contains name = true -> pair.Spares name)
    (around : ScopesAlike pair chosen scopes others)
    (spares : pair.Spares name)
    (binding : Binding) :
    ScopesAlike pair (mark :: chosen) (scope.set name binding :: scopes)
      ((scope.rename (pair.name mark)).set (pair.name mark name) binding :: others) := by
  rw [Bindings.set_rename (pair.name_injective mark)]
  refine .inside mark (fun known bound => ?_) around
  rw [Bindings.contains_set, Bool.or_eq_true, beq_iff_eq] at bound
  rcases bound with rfl | bound
  · exact spares
  · exact spared known bound

/-! ## Walks side by side -/

/-- Walks that have come to the same place of a program and of the program spelled
anew.  The second one may know more globals.  What was filed earlier, in the second
walk only, is kept. -/
structure Alike
    (pair : NamePair)
    (earlier : Distances)
    (listed : Array Nat)
    (chosen : List Bool)
    (walk other : Resolution) : Prop where
  scopes : ScopesAlike pair chosen walk.scopes other.scopes
  globals : walk.globals ⊆ other.globals
  distances : ∀ id : Nat, other.distances[id]? = walk.distances[id]?.or earlier[id]?
  topLevel : other.topLevel = listed ++ walk.topLevel
  clean : other.errors = #[]

section Walks

variable
  {earlier : Distances}
  {listed : Array Nat}
  {walk other : Resolution}

/-- Entering a scope and its renaming, chosen or not. -/
theorem Alike.enter
    {scope : Bindings Binding}
    (alike : Alike pair earlier listed chosen walk other)
    (mark : Bool)
    (spared : ∀ name, scope.contains name = true -> pair.Spares name) :
    Alike pair earlier listed (mark :: chosen) (walk.enter scope)
      (other.enter (scope.rename (pair.name mark))) :=
  ⟨.inside mark spared alike.scopes, alike.globals, alike.distances, alike.topLevel, alike.clean⟩

/-- Leaving the innermost scope on both sides. -/
theorem Alike.leave
    {mark : Bool}
    (alike : Alike pair earlier listed (mark :: chosen) walk other) :
    Alike pair earlier listed chosen walk.leave other.leave := by
  refine ⟨?_, alike.globals, alike.distances, alike.topLevel, alike.clean⟩
  have tails := alike.scopes.drop 1
  rwa [List.drop_one, List.drop_one, List.drop_one, List.tail_cons] at tails

/-- Declaring a name and its respelling in the innermost scope. -/
theorem Alike.declare
    {name : String}
    (alike : Alike pair earlier listed chosen walk other)
    (spares : pair.Spares name) :
    Alike pair earlier listed chosen (walk.declare name)
      (other.declare (pair.name (chosen.headD false) name)) := by
  obtain ⟨scopes, globals, distances, topLevel, clean⟩ := alike
  cases walk
  cases other
  cases scopes with
  | outermost =>
    refine ⟨.outermost, fun known member => ?_, distances, topLevel, clean⟩
    rw [mem_globals_declare rfl] at member
    exact (mem_globals_declare rfl _ _).mpr (member.imp_right (@globals known))
  | @inside chosen scopes others mark scope spared around =>
    rw [List.headD_cons]
    unfold Resolution.declare
    dsimp only
    rw [contains_renamed, NamePair.name_name]
    split
    · exact ⟨.inside mark spared around, globals, distances, topLevel, clean⟩
    · exact ⟨around.bindInner spared spares _, globals, distances, topLevel, clean⟩

/-- Defining a name and its respelling in the innermost scope. -/
theorem Alike.define
    {name : String}
    (alike : Alike pair earlier listed chosen walk other)
    (spares : pair.Spares name) :
    Alike pair earlier listed chosen (walk.define name)
      (other.define (pair.name (chosen.headD false) name)) := by
  obtain ⟨scopes, globals, distances, topLevel, clean⟩ := alike
  cases walk
  cases other
  cases scopes with
  | outermost => exact ⟨.outermost, globals, distances, topLevel, clean⟩
  | @inside chosen scopes others mark scope spared around =>
    rw [List.headD_cons]
    exact ⟨around.bindInner spared spares _, globals, distances, topLevel, clean⟩

/-- Declaring and defining a name and its respelling at once. -/
theorem Alike.bind
    {name : String}
    (alike : Alike pair earlier listed chosen walk other)
    (spares : pair.Spares name) :
    Alike pair earlier listed chosen ((walk.declare name).define name)
      ((other.declare (pair.name (chosen.headD false) name)).define
        (pair.name (chosen.headD false) name)) :=
  (alike.declare spares).define spares

/-- Bind a name that keeps its spelling. -/
theorem Alike.bindKept
    {name : String}
    (alike : Alike pair earlier listed chosen walk other)
    (spares : pair.Spares name)
    (keeps : chosen.headD false = true -> pair.exchange name = name) :
    Alike pair earlier listed chosen ((walk.declare name).define name)
      ((other.declare name).define name) := by
  have kept : pair.name (chosen.headD false) name = name := by
    cases head : chosen.headD false with
    | false => rfl
    | true => exact keeps head
  have bound := alike.bind spares
  rwa [kept] at bound

/-- File a reference for which both walks find the same distance. -/
theorem Alike.file
    {around : Surroundings}
    {reference otherReference : Reference}
    {skip otherSkip : Nat}
    (alike : Alike pair earlier listed chosen walk other)
    (sameId : otherReference.id = reference.id)
    (sameDistance : other.distance? otherReference.name.lexeme otherSkip =
      walk.distance? reference.name.lexeme skip) :
    Alike pair earlier listed chosen (walk.file around reference skip)
      (other.file around otherReference otherSkip) := by
  rw [Resolution.file, Resolution.file, sameDistance]
  cases walk.distance? reference.name.lexeme skip with
  | none => exact alike
  | some distance =>
    refine ⟨alike.scopes, alike.globals, fun id => ?_, ?_, alike.clean⟩
    · dsimp only
      rw [sameId, Std.TreeMap.getElem?_insert, Std.TreeMap.getElem?_insert, alike.distances]
      split <;> rfl
    · dsimp only
      rw [sameId, alike.topLevel]
      split
      · rw [Array.append_push]
      · rfl

/-- What is filed under the number of a reference. -/
theorem filed_file
    (around : Surroundings)
    (reference : Reference)
    (skip : Nat)
    (fresh : walk.distances[reference.id]? = none) :
    (walk.file around reference skip).distances[reference.id]? =
      walk.distance? reference.name.lexeme skip := by
  unfold Resolution.file
  split
  · rename_i isNone
    rw [fresh, isNone]
  · rename_i distance isSome
    rw [isSome]
    simp

end Walks

end Resolution

/-! ## Parts side by side -/

/-- A sound site of a program in which the new name does not occur.  The spelling
has the distances that the walk files there. -/
structure Site.Fits (spelling : Spelling) (site : Site) : Prop where
  sound : Site.Sound site
  numbered : ∀ id, spelling.number id = id
  filed : ∀ id ∈ site.part.ids, spelling.distances[id]? = site.outcome.distances[id]?
  spared : site.part.WellFormed fun token => spelling.Spares token.lexeme
  keepsSelf : spelling.exchange selfName = selfName
  keepsSuperclass : spelling.exchange superclassName = superclassName

/-- The parts of a part that a spelling fits are fitted too. -/
theorem Site.Fits.child
    {spelling : Spelling}
    {site child : Site}
    (fits : Site.Fits spelling site)
    (isChild : child ∈ site.children) :
    Site.Fits spelling child := by
  obtain ⟨before, after, covers⟩ := (Site.child_of_mem_children isChild).covers
  refine ⟨fits.sound.child isChild, fits.numbered, fun id member => ?_,
    (Site.child_of_mem_children isChild).wellFormed fits.spared, fits.keepsSelf,
    fits.keepsSuperclass⟩
  obtain ⟨-, notAfter, inside⟩ := covers.disjoint fits.sound.distinct member
  rw [fits.filed id inside, covers.left.distances id notAfter]

/-- A variable that is read is resolved like a superclass. -/
theorem Site.Fits.ofRead
    {spelling : Spelling}
    {around : Surroundings}
    {target : Reference}
    {walk : Resolution}
    (fits : Site.Fits spelling ⟨around, .expression (.read target), walk⟩) :
    Site.Fits spelling ⟨around, .superclass target, walk⟩ := by
  obtain ⟨⟨distinct, fresh, unlisted, clean, wellFormed⟩, numbered, filed, spared, keepsSelf,
    keepsSuperclass⟩ := fits
  simp only [Part.ids, Expr.ids, Site.outcome, Resolution.expression, Part.WellFormed,
    Expr.WellFormed] at distinct fresh unlisted clean wellFormed filed spared
  exact ⟨⟨distinct, fresh, unlisted, clean, wellFormed⟩, numbered, filed, spared, keepsSelf,
    keepsSuperclass⟩

namespace Resolution

section Parts

variable
  {pair : NamePair}
  {spelling : Spelling}
  {earlier : Distances}
  {listed : Array Nat}
  {chosen : List Bool}
  {walk other : Resolution}

/-- The spelling of a reference is that of the scope at its distance. -/
theorem reaches_of_filed
    {id : Nat}
    {found : Option Nat}
    (filed : spelling.distances[id]? = found) :
    ∀ distance, found = some distance ->
      spelling.reaches chosen id = chosen.getD distance false := by
  intro distance isFound
  rw [Spelling.reaches, filed, isFound]

/-- How many scopes are skipped when a name is read: in its own initializer, the
innermost one. -/
def skips (walk : Resolution) (name : String) : Nat :=
  match walk.scopes with
  | [] => 0
  | scope :: _ => if scope.get? name = some .declared then 1 else 0

/-- A name that is skipped has to be bound further out. -/
def SkipsBound (walk : Resolution) (name : String) : Prop :=
  walk.skips name = 1 -> walk.boundIn walk.scopes.tail name = true

/-- A name that some scope has, past those where it awaits its initializer, is filed. -/
theorem readName_of_skipsBound
    {reference : Reference}
    (around : Surroundings)
    (bound : walk.SkipsBound reference.name.lexeme) :
    walk.readName around reference =
      walk.file around reference (walk.skips reference.name.lexeme) := by
  cases scopes : walk.scopes with
  | nil => simp only [readName, skips, scopes]
  | cons scope outer =>
    by_cases declared : scope.get? reference.name.lexeme = some .declared
    · have isBound := bound (by simp only [skips, scopes, if_pos declared])
      rw [scopes, List.tail_cons] at isBound
      simp only [readName, skips, scopes, if_pos declared, if_pos isBound]
    · simp only [readName, skips, scopes, if_neg declared]

/-- A read without an error finds its name past the scopes where it awaits its
initializer. -/
theorem skipsBound_of_clean
    {around : Surroundings}
    {reference : Reference}
    (clean : (walk.readName around reference).errors.size = 0) :
    walk.SkipsBound reference.name.lexeme := by
  intro skipped
  cases scopes : walk.scopes with
  | nil =>
    rw [skips, scopes] at skipped
    cases skipped
  | cons scope outer =>
    simp only [skips, scopes] at skipped
    split at skipped
    · rename_i declared
      simp only [readName, scopes, if_pos declared] at clean
      split at clean
      · rename_i isBound
        exact isBound
      · simp [report] at clean
    · cases skipped

/-- A name is bound further out when it is found past the innermost scope, or is global.
-/
theorem boundIn_tail (walk : Resolution) (name : String) :
    walk.boundIn walk.scopes.tail name =
      ((walk.distance? name 1).isSome || walk.globals.contains name) := by
  rw [boundIn, distance?, Option.isSome_map, List.drop_one, List.findIdx?_isSome]

/-- Whether or not the innermost scope is skipped for a name, the name under the
spelling of its scope has the same distance. -/
theorem distance?_skips
    {name : String}
    (scopes : ScopesAlike pair chosen walk.scopes other.scopes)
    (spares : pair.Spares name)
    (further : Bool) :
    other.distance? (pair.name further name) (other.skips (pair.name further name)) =
      other.distance? (pair.name further name) (walk.skips name) := by
  unfold skips
  generalize isScopes : walk.scopes = walkScopes at scopes
  generalize isOthers : other.scopes = otherScopes at scopes
  cases scopes with
  | outermost => rfl
  | @inside chosen scopes others mark scope spared around =>
    dsimp only
    rw [get?_renamed]
    by_cases same : pair.name mark (pair.name further name) = name
    · rw [same]
    · have absent : (scope.rename (pair.name mark)).contains (pair.name further name) = false := by
        rw [Bool.eq_false_iff]
        exact fun found => same (contains_of_contains_renamed spared spares found)
      have unbound : scope.get? (pair.name mark (pair.name further name)) = none := by
        rw [contains_renamed, Bindings.contains] at absent
        exact Option.not_isSome_iff_eq_none.mp (Bool.eq_false_iff.mp absent)
      rw [unbound, if_neg (by simp)]
      split
      · exact distance?_skip isOthers absent
      · rfl

/-- The other walk skips its innermost scope only where the first one does. -/
theorem skips_of_respelled
    {name : String}
    {further : Bool}
    (scopes : ScopesAlike pair chosen walk.scopes other.scopes)
    (spares : pair.Spares name)
    (skipped : other.skips (pair.name further name) = 1) :
    walk.skips name = 1 := by
  unfold skips at skipped ⊢
  generalize walk.scopes = walkScopes at scopes ⊢
  generalize other.scopes = otherScopes at scopes skipped
  cases scopes with
  | outermost => exact skipped
  | @inside chosen scopes others mark scope spared around =>
    dsimp only at skipped ⊢
    split at skipped
    · rename_i declared
      have bound : (scope.rename (pair.name mark)).contains (pair.name further name) = true := by
        rw [Bindings.contains, declared]
        rfl
      rw [get?_renamed, contains_of_contains_renamed spared spares bound] at declared
      rw [if_pos declared]
    · cases skipped

/-- Reading a name and its respelling files both at the same distance. -/
theorem Alike.readName
    {around : Surroundings}
    {reference : Reference}
    (alike : Alike spelling.toNamePair earlier listed chosen walk other)
    (fits : Site.Fits spelling ⟨around, .superclass reference, walk⟩) :
    Alike spelling.toNamePair earlier listed chosen (walk.readName around reference)
      (other.readName around (reference.respell spelling chosen)) := by
  have spares : spelling.Spares reference.name.lexeme := fits.spared
  have scopes := alike.scopes
  have bound := skipsBound_of_clean fits.sound.clean
  have filed : spelling.distances[reference.id]? =
      walk.distance? reference.name.lexeme (walk.skips reference.name.lexeme) := by
    have fresh := fits.sound.fresh reference.id (List.mem_singleton_self _)
    rw [fits.filed reference.id (List.mem_singleton_self _), Site.outcome,
      readName_of_skipsBound around bound, filed_file around reference _ fresh]
  have spelled : (reference.respell spelling chosen).name.lexeme =
      spelling.name (spelling.reaches chosen reference.id) reference.name.lexeme := rfl
  have sameDistance := distance?_respelled scopes spares _ (reaches_of_filed filed)
  have otherBound : other.SkipsBound (reference.respell spelling chosen).name.lexeme := by
    intro otherSkips
    have skipped := skips_of_respelled scopes spares otherSkips
    rw [skipped] at sameDistance filed
    have isBound := bound skipped
    rw [boundIn_tail] at isBound ⊢
    rw [spelled, sameDistance]
    cases found : walk.distance? reference.name.lexeme 1 with
    | some distance => rfl
    | none =>
      rw [found] at filed isBound
      rw [Spelling.reaches, filed]
      rw [Option.isSome_none, Bool.false_or, List.contains_iff_mem] at isBound ⊢
      exact alike.globals isBound
  rw [readName_of_skipsBound around bound, readName_of_skipsBound around otherBound]
  refine alike.file (fits.numbered _) ?_
  rw [spelled, distance?_skips scopes spares, sameDistance]

/-- File `this` or `super`, which are not spelled anew. -/
theorem Alike.fileKeyword
    {around : Surroundings}
    {keyword : Reference}
    (alike : Alike spelling.toNamePair earlier listed chosen walk other)
    (numbered : ∀ id, spelling.number id = id)
    (kept : spelling.exchange keyword.name.lexeme = keyword.name.lexeme) :
    Alike spelling.toNamePair earlier listed chosen (walk.file around keyword 0)
      (other.file around (keyword.move spelling) 0) := by
  refine alike.file (numbered _) ?_
  have reached : ∀ distance, walk.distance? keyword.name.lexeme 0 = some distance ->
      chosen.getD ((walk.distance? keyword.name.lexeme 0).getD 0) false =
        chosen.getD distance false := by
    intro distance found
    rw [found, Option.getD_some]
  have same := distance?_respelled alike.scopes (.inr kept) 0 reached
  rwa [NamePair.name_of_exchange_eq kept] at same

/-- Reading the receiver, which no renaming touches. -/
theorem Alike.readSelf
    {around : Surroundings}
    {keyword : Reference}
    (alike : Alike spelling.toNamePair earlier listed chosen walk other)
    (numbered : ∀ id, spelling.number id = id)
    (clean : (walk.readSelf around keyword).errors.size = 0)
    (kept : spelling.exchange keyword.name.lexeme = keyword.name.lexeme) :
    Alike spelling.toNamePair earlier listed chosen (walk.readSelf around keyword)
      (other.readSelf around (keyword.move spelling)) := by
  unfold Resolution.readSelf at clean ⊢
  split
  · rename_i isNone
    simp [isNone, report] at clean
  · exact alike.fileKeyword numbered kept
  · exact alike.fileKeyword numbered kept

/-- Reading the superclass, which no renaming touches. -/
theorem Alike.readInherited
    {around : Surroundings}
    {keyword : Reference}
    (alike : Alike spelling.toNamePair earlier listed chosen walk other)
    (numbered : ∀ id, spelling.number id = id)
    (clean : (walk.readInherited around keyword).errors.size = 0)
    (kept : spelling.exchange keyword.name.lexeme = keyword.name.lexeme) :
    Alike spelling.toNamePair earlier listed chosen (walk.readInherited around keyword)
      (other.readInherited around (keyword.move spelling)) := by
  unfold Resolution.readInherited at clean ⊢
  split
  · rename_i isNone
    simp [isNone, report] at clean
  · rename_i isPlain
    simp [isPlain, report] at clean
  · exact alike.fileKeyword numbered kept

/-- File the target of an assignment after its value. -/
theorem Alike.fileAssigned
    {around : Surroundings}
    {target : Reference}
    {value : Expr}
    {valued : Resolution}
    (alike : Alike spelling.toNamePair earlier listed chosen (expression around value walk) valued)
    (fits : Site.Fits spelling ⟨around, .expression (.assign target value), walk⟩) :
    Alike spelling.toNamePair earlier listed chosen
      ((expression around value walk).file around target 0)
      (valued.file around (target.respell spelling chosen) 0) := by
  have member : target.id ∈ (Part.expression (.assign target value)).ids := by
    simp [Part.ids]
  have spares : spelling.Spares target.name.lexeme := by
    have spared := fits.spared
    rw [Part.WellFormed, Expr.WellFormed] at spared
    exact spared.1
  have fresh : (expression around value walk).distances[target.id]? = none := by
    have distinct := fits.sound.distinct
    rw [Part.ids, Expr.ids, List.nodup_append] at distinct
    have absent : target.id ∉ value.ids := fun inside =>
      distinct.2.2 _ inside _ (List.mem_singleton_self _) rfl
    rw [(adds_expression around value walk).distances _ absent]
    exact fits.sound.fresh _ member
  have filed := fits.filed _ member
  rw [Site.outcome, expression, filed_file around target 0 fresh] at filed
  exact alike.file (fits.numbered _)
    (distance?_respelled alike.scopes spares 0 (reaches_of_filed filed))

mutual

/-- The walks over an expression and over its respelling stay alike. -/
theorem alike_expression (around : Surroundings) :
    ∀ (value : Expr) {walk other : Resolution},
      Alike spelling.toNamePair earlier listed chosen walk other ->
      Site.Fits spelling ⟨around, .expression value, walk⟩ ->
      Alike spelling.toNamePair earlier listed chosen (expression around value walk)
        (expression around (value.respell spelling chosen) other)
  | .literal _, _, _, alike, _ => by
    rw [Expr.respell, expression, expression]
    exact alike
  | .grouping inner, _, _, alike, fits => by
    rw [Expr.respell, expression, expression]
    exact alike_expression around inner alike
      (fits.child (by simp [Site.children, Site.inExpression]))
  | .unary _ right, _, _, alike, fits => by
    rw [Expr.respell, expression, expression]
    exact alike_expression around right alike
      (fits.child (by simp [Site.children, Site.inExpression]))
  | .binary left _ right, _, _, alike, fits => by
    rw [Expr.respell, expression, expression]
    have before := alike_expression around left alike
      (fits.child (by simp [Site.children, Site.inExpression]))
    exact alike_expression around right before
      (fits.child (by simp [Site.children, Site.inExpression]))
  | .logical left _ right, _, _, alike, fits => by
    rw [Expr.respell, expression, expression]
    have before := alike_expression around left alike
      (fits.child (by simp [Site.children, Site.inExpression]))
    exact alike_expression around right before
      (fits.child (by simp [Site.children, Site.inExpression]))
  | .read target, _, _, alike, fits => by
    rw [Expr.respell, expression, expression]
    exact alike.readName fits.ofRead
  | .assign target value, _, _, alike, fits => by
    rw [Expr.respell, expression, expression]
    have valued := alike_expression around value alike
      (fits.child (by simp [Site.children, Site.inExpression]))
    exact valued.fileAssigned fits
  | .call callee _ arguments, _, _, alike, fits => by
    rw [Expr.respell, expression, expression]
    have before := alike_expression around callee alike
      (fits.child (by simp [Site.children, Site.inExpression]))
    exact alike_expressions around arguments before
      (fits.child (by simp [Site.children, Site.inExpression]))
  | .property object _, _, _, alike, fits => by
    rw [Expr.respell, expression, expression]
    exact alike_expression around object alike
      (fits.child (by simp [Site.children, Site.inExpression]))
  | .setProperty object _ value, _, _, alike, fits => by
    rw [Expr.respell, expression, expression]
    have before := alike_expression around value alike
      (fits.child (by simp [Site.children, Site.inExpression]))
    exact alike_expression around object before
      (fits.child (by simp [Site.children, Site.inExpression]))
  | .self keyword, _, _, alike, fits => by
    rw [Expr.respell, expression, expression]
    have isSelf := fits.spared
    have clean := fits.sound.clean
    rw [Part.WellFormed, Expr.WellFormed] at isSelf
    rw [Site.outcome, expression] at clean
    refine alike.readSelf fits.numbered clean ?_
    rw [isSelf, fits.keepsSelf]
  | .inherited keyword _, _, _, alike, fits => by
    rw [Expr.respell, expression, expression]
    have isSuperclass := fits.spared
    have clean := fits.sound.clean
    rw [Part.WellFormed, Expr.WellFormed] at isSuperclass
    rw [Site.outcome, expression] at clean
    refine alike.readInherited fits.numbered clean ?_
    rw [isSuperclass, fits.keepsSuperclass]

/-- The walks over expressions and over their respellings stay alike. -/
theorem alike_expressions (around : Surroundings) :
    ∀ (values : List Expr) {walk other : Resolution},
      Alike spelling.toNamePair earlier listed chosen walk other ->
      Site.Fits spelling ⟨around, .expressions values, walk⟩ ->
      Alike spelling.toNamePair earlier listed chosen (expressions around values walk)
        (expressions around (Expr.listRespell spelling chosen values) other)
  | [], _, _, alike, _ => by
    rw [Expr.listRespell, expressions, expressions]
    exact alike
  | first :: rest, _, _, alike, fits => by
    rw [Expr.listRespell, expressions, expressions]
    have before := alike_expression around first alike (fits.child (by simp [Site.children]))
    exact alike_expressions around rest before (fits.child (by simp [Site.children]))

end

/-- The walks over an optional expression and over its respelling stay alike. -/
theorem Alike.optionalExpression
    {around : Surroundings}
    {value : Option Expr}
    (alike : Alike spelling.toNamePair earlier listed chosen walk other)
    (fits : ∀ site ∈ Site.ofOption around value walk, Site.Fits spelling site) :
    Alike spelling.toNamePair earlier listed chosen (optionalExpression around value walk)
      (optionalExpression around (Expr.optionRespell spelling chosen value) other) := by
  cases value with
  | none => exact alike
  | some value => exact alike_expression around value alike (fits _ (List.mem_singleton_self _))

theorem spared_empty (pair : NamePair) :
    ∀ name, (Bindings.empty : Bindings Binding).contains name = true -> pair.Spares name := by
  intro name bound
  rw [Bindings.contains_empty] at bound
  cases bound

/-- The scope of a keyword, which is not spelled anew. -/
theorem Alike.enterKeyword
    {name : String}
    (alike : Alike pair earlier listed chosen walk other)
    (kept : pair.exchange name = name) :
    Alike pair earlier listed (false :: chosen) (walk.enter (Bindings.empty.set name .defined))
      (other.enter (Bindings.empty.set name .defined)) := by
  refine alike.enter false fun known bound => .inr ?_
  rw [Bindings.contains_set, Bindings.contains_empty, Bool.or_false, beq_iff_eq] at bound
  rw [bound, kept]

/-- Entering a function and its respelling, whose scope is chosen or not. -/
theorem Alike.enterFunction
    {parameters : List Token}
    (alike : Alike spelling.toNamePair earlier listed chosen walk other)
    (mark : Bool)
    (spared : ∀ parameter ∈ parameters, spelling.Spares parameter.lexeme) :
    Alike spelling.toNamePair earlier listed (mark :: chosen) (walk.enterFunction parameters)
      (other.enterFunction (parameters.map (·.respell spelling mark))) := by
  unfold Resolution.enterFunction
  rw [List.foldl_map]
  exact List.foldl_rel (alike.enter mark (spared_empty _)) fun parameter member _ _ entered =>
    entered.bind (spared parameter member)

/-- A class does not come to inherit from itself. -/
theorem Alike.enterSubclass
    {around : Surroundings}
    {name : Token}
    {superclass : Reference}
    (alike : Alike spelling.toNamePair earlier listed chosen walk other)
    (spares : spelling.Spares name.lexeme)
    (fits : Site.Fits spelling ⟨{ around with classKind := .subclass }, .superclass superclass,
      walk.checkSuperclass name superclass⟩) :
    Alike spelling.toNamePair earlier listed (false :: chosen)
      (walk.enterSubclass around name superclass)
      (other.enterSubclass around (name.respell spelling false)
        (superclass.respell spelling chosen)) := by
  have superclassSpares : spelling.Spares superclass.name.lexeme := fits.spared
  have noErrors := fits.sound.noErrors
  have different : superclass.name.lexeme ≠ name.lexeme := by
    intro same
    simp [checkSuperclass, same, report] at noErrors
  have unchecked : walk.checkSuperclass name superclass = walk := by
    rw [checkSuperclass, if_neg different]
  have otherDifferent :
      (superclass.respell spelling chosen).name.lexeme ≠ (name.respell spelling false).lexeme := by
    intro same
    change spelling.name _ superclass.name.lexeme = name.lexeme at same
    refine different ?_
    rw [← same] at spares ⊢
    exact (superclassSpares.name_eq spares).symm
  have otherUnchecked :
      other.checkSuperclass (name.respell spelling false) (superclass.respell spelling chosen) =
        other := by
    rw [checkSuperclass, if_neg otherDifferent]
  rw [unchecked] at fits
  rw [enterSubclass_eq, enterSubclass_eq, unchecked, otherUnchecked]
  exact (alike.readName fits).enterKeyword fits.keepsSuperclass

mutual

/-- The walks over a statement and over its respelling stay alike, for every choice of
scopes inside. -/
theorem alike_statement (around : Surroundings) :
    ∀ (step : Stmt) (choice : Choice) {chosen : List Bool} {walk other : Resolution},
      Alike spelling.toNamePair earlier listed chosen walk other ->
      Site.Fits spelling ⟨around, .statement step, walk⟩ ->
      (chosen.headD false = true -> step.keepsNames spelling = true) ->
      Alike spelling.toNamePair earlier listed chosen (statement around step walk)
        (statement around (step.respell spelling choice chosen) other)
  | .expression value, _, _, _, _, alike, fits, _ => by
    rw [Stmt.respell, statement, statement]
    exact alike_expression around value alike
      (fits.child (by simp [Site.children, Site.inStatement]))
  | .print value, _, _, _, _, alike, fits, _ => by
    rw [Stmt.respell, statement, statement]
    exact alike_expression around value alike
      (fits.child (by simp [Site.children, Site.inStatement]))
  | .declare name initializer, _, _, _, _, alike, fits, _ => by
    have spared := fits.spared
    rw [Part.WellFormed, Stmt.WellFormed] at spared
    rw [Stmt.respell, statement, statement]
    exact ((alike.declare spared.1).optionalExpression fun _ isChild => fits.child isChild).define
      spared.1
  | .block body, choice, chosen, _, _, alike, fits, _ => by
    rw [Stmt.respell, statement, statement]
    have inside := alike.enter (spelling.chooses choice body) (spared_empty _)
    exact (alike_statements around body choice inside
      (fits.child (by simp [Site.children, Site.inStatement]))
      Spelling.keepsNames_of_chooses).leave
  | .conditional condition thenBranch elseBranch, choice, chosen, _, _, alike, fits, keeps => by
    have kept : chosen.headD false = true ->
        thenBranch.keepsNames spelling = true ∧
          Stmt.optionKeepsNames spelling elseBranch = true := by
      intro head
      have both := keeps head
      rwa [Stmt.keepsNames, Bool.and_eq_true] at both
    rw [Stmt.respell, statement, statement]
    have tested := alike_expression around condition alike
      (fits.child (by simp [Site.children, Site.inStatement]))
    have taken := alike_statement around thenBranch choice.left tested
      (fits.child (by simp [Site.children, Site.inStatement])) fun head => (kept head).1
    refine alike_optionalStatement around elseBranch choice.right taken (fun branch isBranch => ?_)
      fun head => (kept head).2
    subst isBranch
    exact fits.child (by simp [Site.children, Site.inStatement])
  | .loop condition body, choice, _, _, _, alike, fits, keeps => by
    rw [Stmt.keepsNames] at keeps
    rw [Stmt.respell, statement, statement]
    have tested := alike_expression around condition alike
      (fits.child (by simp [Site.children, Site.inStatement]))
    exact alike_statement around body choice tested
      (fits.child (by simp [Site.children, Site.inStatement])) keeps
  | .function declaration, choice, _, _, _, alike, fits, keeps => by
    have spares : spelling.Spares declaration.name.lexeme := by
      obtain ⟨name, parameters, body⟩ := declaration
      have spared := fits.spared
      rw [Part.WellFormed, Stmt.WellFormed, FunctionDecl.WellFormed] at spared
      exact spared.1
    rw [Stmt.keepsNames] at keeps
    rw [Stmt.respell, statement, statement, FunctionDecl.name_respell]
    exact alike_function _ declaration choice
      (alike.bindKept spares fun head => eq_of_beq (keeps head))
      (fits.child (by simp [Site.children, Site.inStatement]))
  | .returns keyword value, _, _, walk, _, alike, fits, _ => by
    -- An accepted text has no return outside of functions.
    have inFunction : around.functionKind ≠ .none := by
      intro isNone
      have clean := fits.sound.clean
      rw [Site.outcome, statement, if_pos isNone] at clean
      have kept := (adds_optionalExpression around value
        (walk.report keyword .returnAtTopLevel)).errors
      rw [clean] at kept
      simp [report] at kept
    rw [Stmt.respell, statement, statement, if_neg inFunction, if_neg inFunction]
    refine alike.optionalExpression fun site isChild => fits.child ?_
    rw [Site.children, Site.inStatement, if_neg inFunction]
    exact isChild
  | .classDecl name none functions, choice, _, _, _, alike, fits, keeps => by
    have spared := fits.spared
    rw [Part.WellFormed, Stmt.WellFormed] at spared
    rw [Stmt.keepsNames] at keeps
    rw [Stmt.respell, Option.map_none, statement, statement]
    have named := alike.bindKept spared.1 fun head => eq_of_beq (keeps head)
    exact (alike_methods _ functions choice (named.enterKeyword fits.keepsSelf)
      (fits.child (by simp [Site.children, Site.inStatement]))).leave
  | .classDecl name (some superclass) functions, choice, _, _, _, alike, fits, keeps => by
    have spared := fits.spared
    rw [Part.WellFormed, Stmt.WellFormed] at spared
    rw [Stmt.keepsNames] at keeps
    rw [Stmt.respell, Option.map_some, statement, statement]
    have named := alike.bindKept spared.1 fun head => eq_of_beq (keeps head)
    have parent : Site.Fits spelling ⟨{ around with classKind := .subclass },
        .superclass superclass, _⟩ :=
      fits.child (by simp only [Site.children, Site.inStatement]; exact List.mem_cons_self)
    -- The scopes around the methods have reserved names only, which no pair exchanges.
    have inherited := named.enterSubclass spared.1 parent
    exact (alike_methods _ functions choice (inherited.enterKeyword fits.keepsSelf)
      (fits.child (by simp [Site.children, Site.inStatement]))).leave.leave

/-- The walks over statements and over their respellings stay alike, for every choice of
scopes inside. -/
theorem alike_statements (around : Surroundings) :
    ∀ (steps : List Stmt) (choice : Choice) {chosen : List Bool} {walk other : Resolution},
      Alike spelling.toNamePair earlier listed chosen walk other ->
      Site.Fits spelling ⟨around, .statements steps, walk⟩ ->
      (chosen.headD false = true -> steps.all (·.keepsNames spelling) = true) ->
      Alike spelling.toNamePair earlier listed chosen (statements around steps walk)
        (statements around (Stmt.listRespell spelling choice chosen steps) other)
  | [], _, _, _, _, alike, _, _ => by
    rw [Stmt.listRespell, statements, statements]
    exact alike
  | first :: rest, choice, chosen, _, _, alike, fits, keeps => by
    simp only [List.all_cons, Bool.and_eq_true] at keeps
    rw [Stmt.listRespell, statements, statements]
    have before := alike_statement around first choice.left alike
      (fits.child (by simp [Site.children]))
      fun head => (keeps head).1
    exact alike_statements around rest choice.right before (fits.child (by simp [Site.children]))
      fun head => (keeps head).2

/-- The walks over a branch and over its respelling stay alike, for every choice of scopes
inside. -/
theorem alike_optionalStatement (around : Surroundings) :
    ∀ (step : Option Stmt) (choice : Choice) {chosen : List Bool} {walk other : Resolution},
      Alike spelling.toNamePair earlier listed chosen walk other ->
      (∀ branch, step = some branch -> Site.Fits spelling ⟨around, .statement branch, walk⟩) ->
      (chosen.headD false = true -> Stmt.optionKeepsNames spelling step = true) ->
      Alike spelling.toNamePair earlier listed chosen (optionalStatement around step walk)
        (optionalStatement around (Stmt.optionRespell spelling choice chosen step) other)
  | none, _, _, _, _, alike, _, _ => by
    rw [Stmt.optionRespell, optionalStatement, optionalStatement]
    exact alike
  | some branch, choice, _, _, _, alike, fits, keeps => by
    rw [Stmt.optionKeepsNames] at keeps
    rw [Stmt.optionRespell, optionalStatement, optionalStatement]
    exact alike_statement around branch choice alike (fits branch rfl) keeps

/-- The walks over a function and over its respelling stay alike, for every choice of
scopes inside. -/
theorem alike_function (around : Surroundings) :
    ∀ (declaration : FunctionDecl) (choice : Choice) {chosen : List Bool}
      {walk other : Resolution},
      Alike spelling.toNamePair earlier listed chosen walk other ->
      Site.Fits spelling ⟨around, .function declaration, walk⟩ ->
      Alike spelling.toNamePair earlier listed chosen (function around declaration walk)
        (function around (declaration.respell spelling choice chosen) other)
  | ⟨name, parameters, body⟩, choice, chosen, _, _, alike, fits => by
    have spared := fits.spared
    rw [Part.WellFormed, FunctionDecl.WellFormed] at spared
    rw [FunctionDecl.respell, function, function]
    have inside := alike.enterFunction (spelling.chooses choice body) spared.2.1
    exact (alike_statements around body choice inside (fits.child (by simp [Site.children]))
      Spelling.keepsNames_of_chooses).leave

/-- The walks over methods and over their respellings stay alike, for every choice of
scopes inside. -/
theorem alike_methods (around : Surroundings) :
    ∀ (declarations : List FunctionDecl) (choice : Choice) {chosen : List Bool}
      {walk other : Resolution},
      Alike spelling.toNamePair earlier listed chosen walk other ->
      Site.Fits spelling ⟨around, .methods declarations, walk⟩ ->
      Alike spelling.toNamePair earlier listed chosen (methods around declarations walk)
        (methods around (FunctionDecl.listRespell spelling choice chosen declarations) other)
  | [], _, _, _, _, alike, _ => by
    rw [FunctionDecl.listRespell, methods, methods]
    exact alike
  | first :: rest, choice, _, _, _, alike, fits => by
    rw [FunctionDecl.listRespell, methods, methods, FunctionDecl.name_respell]
    have before := alike_function
      { around with functionKind := methodKind first.name.lexeme } first choice.left alike
      (fits.child (by simp [Site.children]))
    exact alike_methods around rest choice.right before (fits.child (by simp [Site.children]))

end

end Parts

end Resolution
end TreeWalk
