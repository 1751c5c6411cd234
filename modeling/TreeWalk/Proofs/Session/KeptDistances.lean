import TreeWalk.Proofs.Parse.Numbering
import TreeWalk.Proofs.Resolution.Bodies
import TreeWalk.Proofs.Session.History

/-!
# The distances that are kept

Between two runs, the machine has the distances of the references inside of
functions of all programs that were accepted so far, and no others.  The numbers
of these programs are disjoint, so no run changes the distances of an earlier
one, and no run looks up a reference whose distance was dropped.
-/

namespace TreeWalk

open Resolution

section Tasks

variable {roots : List Site} {machine : Machine}

/-- All the while that a task is carried out, the distances stay as they are. -/
theorem Task.Visits.distances
    {task inner : Task}
    {final : Machine}
    (visits : task.Visits machine inner final) :
    final.distances = machine.distances := by
  induction visits with
  | start => rfl
  | further _ begins inductionHypothesis =>
    refine Eq.trans ?_ inductionHypothesis
    rcases begins.getsTo_or_enters with getsTo | enters
    · exact getsTo.resumes.distances
    · cases enters <;> rfl

/-- So they do while a program is interpreted. -/
theorem Session.Visits.distances
    {fuel : Nat}
    {echo : Bool}
    {program : List Stmt}
    {task : Task}
    {final : Machine}
    (visits : Session.Visits fuel echo program machine task final) :
    final.distances = machine.distances := by
  induction visits with
  | first visits => exact visits.distances
  | @later first _ machine _ _ _ done _ inductionHypothesis =>
    have grown : growthInvariant.Judged (Session.executeTopLevel fuel echo first) machine _ :=
      growthInvariant.judged_executeTopLevel echo trivial
    exact inductionHypothesis.trans (grown.ok trivial done).1.distances

/-- A task that looks up a reference is at a charted site which has it as its
own. -/
theorem Task.Ready.charted
    {task : Task}
    {reference : Reference}
    {name : String}
    (ready : task.Ready roots machine)
    (accessed : task.access? = some (reference, name)) :
    ∃ site, Charted roots machine.distances site ∧ task.part? = some site.part ∧
      reference.id ∈ site.part.ids := by
  cases task with
  | evaluate fuel value =>
    obtain ⟨site, part, located⟩ := ready
    refine ⟨site, located.charted, by rw [part, Task.part?], ?_⟩
    rw [part]
    cases value with
    | read | self | inherited =>
      cases accessed
      simp [Part.ids]
    | _ => cases accessed
  | store target value =>
    obtain ⟨site, part, located⟩ := ready
    refine ⟨site, located.charted, by rw [part, Task.part?], ?_⟩
    cases accessed
    simp [part, Part.ids]
  | superclass ownName superclass =>
    obtain ⟨site, outer, part, -, -, -, charted, -⟩ := ready
    refine ⟨site, charted, by rw [part, Task.part?], ?_⟩
    cases accessed
    simp [part, Part.ids]
  | _ => cases accessed

end Tasks

/-- A reference newly listed by filing has been filed. -/
theorem Resolution.filed_of_listed_file
    {around : Surroundings}
    {reference : Reference}
    {skip : Nat}
    {walk : Resolution}
    (unlisted : reference.id ∉ walk.topLevel)
    (listed : reference.id ∈ (walk.file around reference skip).topLevel) :
    (walk.file around reference skip).distances[reference.id]? ≠ none := by
  unfold file at listed ⊢
  split
  · rename_i notFound
    rw [notFound] at listed
    exact absurd listed unlisted
  · simp

/-- A reference newly listed by a read has been filed. -/
theorem Resolution.filed_of_listed_readName
    {around : Surroundings}
    {reference : Reference}
    {walk : Resolution}
    (unlisted : reference.id ∉ walk.topLevel)
    (listed : reference.id ∈ (walk.readName around reference).topLevel) :
    (walk.readName around reference).distances[reference.id]? ≠ none := by
  unfold readName at listed ⊢
  dsimp only at listed ⊢
  split at listed
  · exact filed_of_listed_file unlisted listed
  · split at listed
    · split at listed
      · rename_i declared bound
        rw [if_pos declared, if_pos bound]
        exact filed_of_listed_file unlisted listed
      · exact absurd listed unlisted
    · rename_i notDeclared
      rw [if_neg notDeclared]
      exact filed_of_listed_file unlisted listed

/-- A reference that is looked up and listed has a distance. -/
theorem Task.filed_of_listed
    {task : Task}
    {reference : Reference}
    {name : String}
    {root site : Site}
    (accessed : task.access? = some (reference, name))
    (part : task.part? = some site.part)
    (sound : root.Sound)
    (within : root.Within site)
    (member : reference.id ∈ site.part.ids)
    (listed : reference.id ∈ root.outcome.topLevel) :
    root.outcome.distances[reference.id]? ≠ none := by
  -- What the whole walk files and lists for the reference, it files and lists at the site.
  obtain ⟨sameDistance, sameListing⟩ := within.filed sound member
  rw [sameDistance]
  rw [sameListing] at listed
  have atSite := within.sound sound
  have unlisted := atSite.unlisted _ member
  obtain ⟨around, _, walk⟩ := site
  cases task with
  | evaluate fuel value =>
    cases part
    cases value with
    | read target =>
      cases accessed
      rw [Site.outcome, Resolution.expression] at listed ⊢
      exact filed_of_listed_readName unlisted listed
    | self keyword =>
      cases accessed
      rw [Site.outcome, Resolution.expression, readSelf] at listed ⊢
      split at listed
      · exact absurd listed unlisted
      · exact filed_of_listed_file unlisted listed
      · exact filed_of_listed_file unlisted listed
    | inherited keyword method =>
      cases accessed
      rw [Site.outcome, Resolution.expression, readInherited] at listed ⊢
      split at listed
      · exact absurd listed unlisted
      · exact absurd listed unlisted
      · exact filed_of_listed_file unlisted listed
    | _ => cases accessed
  | store target value =>
    cases part
    cases accessed
    rw [Site.outcome, Resolution.expression] at listed ⊢
    refine filed_of_listed_file (fun earlier => unlisted ?_) listed
    -- The target has a number of its own, so the value does not list it.
    have distinct := atSite.distinct
    rw [Part.ids, Expr.ids, List.nodup_append] at distinct
    have notInValue : reference.id ∉ value.ids := fun inside =>
      distinct.2.2 _ inside _ (List.mem_singleton_self _) rfl
    exact ((adds_expression around value walk).topLevel _ notInValue).mp earlier
  | superclass ownName superclass =>
    cases part
    cases accessed
    rw [Site.outcome] at listed ⊢
    exact filed_of_listed_readName unlisted listed
  | _ => cases accessed

namespace Session

variable {session : Session} {roots : List Site}

/-- The distances that the machine has between two runs are those of the
references inside of functions of some programs. -/
def Keeps (session : Session) (roots : List Site) : Prop :=
  ∀ id distance, session.machine.distances[id]? = some distance ↔
    ∃ root ∈ roots, id ∈ root.part.bodyIds ∧ root.outcome.distances[id]? = some distance

/-- The numbers of different programs are disjoint. -/
def Disjoint (roots : List Site) : Prop :=
  roots.Pairwise fun later earlier => later.part.ids.Disjoint earlier.part.ids

/-- The references of a program that is accepted have numbers that no earlier
program has. -/
theorem Consistent.disjoint_root
    {source : String}
    (consistent : session.Consistent roots)
    (accepts : session.staticErrors source = [])
    {root : Site}
    (member : root ∈ roots) :
    (session.root source).part.ids.Disjoint root.part.ids := by
  intro id isNew isOld
  have above := ((spans_of_accepted accepts).bounds id isNew).1
  exact Nat.not_lt.mpr above (consistent.numbered root member id isOld)

/-- After an accepted run, the distances inside of functions of the program have
been added. -/
theorem Keeps.run
    {after : Session}
    {source : String}
    {fuel : Nat}
    {result : RunResult}
    (keeps : session.Keeps roots)
    (consistent : session.Consistent roots)
    (accepts : session.staticErrors source = [])
    (runs : session.run fuel source = some (result, after)) :
    after.Keeps (session.root source :: roots) := by
  have advances := advances_interpret fuel session.echo 0 rfl (located_root consistent accepts)
  obtain rfl := eq_of_run accepts runs
  intro id distance
  dsimp only
  rw [Machine.getElem?_forgetDistances, interpreted, advances.distances,
    getElem?_ready consistent accepts]
  -- A number belongs to the new program or to one of the earlier ones, never to both.
  by_cases isNew : id ∈ (session.root source).part.ids
  · have unlisted : (session.resolution source).distances[id]? = some distance ∧
        id ∉ (session.resolution source).topLevel ↔
        id ∈ (session.root source).part.bodyIds ∧
          (session.root source).outcome.distances[id]? = some distance :=
      Site.filed_unlisted_iff (root_sound accepts) rfl rfl id distance
    have kept : (if id ∈ (session.resolution source).topLevel.toList then none
        else (session.resolution source).distances[id]?) = some distance ↔
        (session.resolution source).distances[id]? = some distance ∧
          id ∉ (session.resolution source).topLevel := by
      by_cases listed : id ∈ (session.resolution source).topLevel <;> simp [listed]
    rw [if_pos isNew, kept, unlisted]
    constructor
    · exact fun inBody => ⟨_, List.mem_cons_self, inBody⟩
    · rintro ⟨root, member, inBody, filed⟩
      rcases List.mem_cons.mp member with rfl | isOld
      · exact ⟨inBody, filed⟩
      · exact absurd (Part.bodyIds_subset _ inBody)
          (consistent.disjoint_root accepts isOld isNew)
  · have notListed : id ∉ (session.resolution source).topLevel.toList :=
      fun listed => isNew (mem_ids_of_mem_topLevel listed)
    rw [if_neg notListed, if_neg isNew, keeps id distance]
    constructor
    · rintro ⟨root, member, inBody⟩
      exact ⟨root, List.mem_cons_of_mem _ member, inBody⟩
    · rintro ⟨root, member, inBody, filed⟩
      rcases List.mem_cons.mp member with rfl | isOld
      · exact absurd (Part.bodyIds_subset _ inBody) isNew
      · exact ⟨root, isOld, inBody, filed⟩

/-- Every history keeps the distances inside of functions of its accepted programs,
whose numbers are disjoint. -/
theorem History.keeps (past : History session roots) :
    session.Keeps roots ∧ Disjoint roots := by
  induction past with
  | fresh clock output =>
    refine ⟨fun id distance => ?_, .nil⟩
    simp [Session.fresh, Machine.fresh]
  | echo past echo inductionHypothesis => exact inductionHypothesis
  | accepted past accepts runs inductionHypothesis =>
    obtain ⟨keeps, disjoint⟩ := inductionHypothesis
    refine ⟨keeps.run past.consistent accepts runs, .cons ?_ disjoint⟩
    exact fun root member => past.consistent.disjoint_root accepts member
  | rejected past rejects runs inductionHypothesis =>
    rw [run_of_rejected rejects] at runs
    cases runs
    exact inductionHypothesis

/-- A number belongs to one program only. -/
theorem Disjoint.eq_of_mem
    {one other : Site}
    {id : Nat}
    (disjoint : Disjoint roots)
    (isRoot : one ∈ roots)
    (isOther : other ∈ roots)
    (inOne : id ∈ one.part.ids)
    (inOther : id ∈ other.part.ids) :
    one = other := by
  induction disjoint with
  | nil => exact nomatch isRoot
  | cons apart _ inductionHypothesis =>
    rcases List.mem_cons.mp isRoot with rfl | inRest
    · rcases List.mem_cons.mp isOther with rfl | otherInRest
      · rfl
      · exact (apart other otherInRest inOne inOther).elim
    · rcases List.mem_cons.mp isOther with rfl | otherInRest
      · exact (apart one inRest inOther inOne).elim
      · exact inductionHypothesis inRest otherInRest

/-- The functions of a program that was accepted have the distances that were
filed for them. -/
theorem Keeps.getElem?
    {root : Site}
    {id : Nat}
    (keeps : session.Keeps roots)
    (disjoint : Disjoint roots)
    (member : root ∈ roots)
    (inBody : id ∈ root.part.bodyIds) :
    session.machine.distances[id]? = root.outcome.distances[id]? := by
  refine Option.ext fun distance => (keeps id distance).trans ?_
  constructor
  · rintro ⟨other, isOther, inOther, filed⟩
    have same := disjoint.eq_of_mem isOther member (Part.bodyIds_subset _ inOther)
      (Part.bodyIds_subset _ inBody)
    rwa [same] at filed
  · exact fun filed => ⟨root, member, inBody, filed⟩

/-- The programs of a history are those of source texts that were accepted. -/
theorem History.exists_source
    (past : History session roots)
    {root : Site}
    (member : root ∈ roots) :
    ∃ (earlier : Session) (source : String),
      earlier.staticErrors source = [] ∧ root = earlier.root source := by
  induction past with
  | fresh clock output => exact nomatch member
  | echo past echo inductionHypothesis => exact inductionHypothesis member
  | accepted past accepts runs inductionHypothesis =>
    rcases List.mem_cons.mp member with rfl | isOld
    · exact ⟨_, _, accepts, rfl⟩
    · exact inductionHypothesis isOld
  | rejected past rejects runs inductionHypothesis => exact inductionHypothesis member

section Run

variable {source : String} {fuel : Nat} {task : Task} {machine : Machine}

/-- All the while that an accepted program runs, its functions and those of the
programs before it have the distances that were filed for them. -/
theorem History.getElem?_visited
    (past : History session roots)
    (accepts : session.staticErrors source = [])
    (visits : Visits fuel session.echo (session.program source) (session.ready source) task machine)
    {root : Site}
    {id : Nat}
    (member : root ∈ session.root source :: roots)
    (inBody : id ∈ root.part.bodyIds) :
    machine.distances[id]? = root.outcome.distances[id]? := by
  have inside := Part.bodyIds_subset _ inBody
  rw [visits.distances, getElem?_ready past.consistent accepts]
  rcases List.mem_cons.mp member with rfl | isOld
  · rw [if_pos inside]
    rfl
  · rw [if_neg fun isNew => past.consistent.disjoint_root accepts isOld isNew inside]
    exact past.keeps.1.getElem? past.keeps.2 isOld inBody

/-- No run looks up a reference that an earlier program has listed, the distance
of which was dropped after that program had run. -/
theorem History.not_listed_of_visited
    (past : History session roots)
    (accepts : session.staticErrors source = [])
    (visits : Visits fuel session.echo (session.program source) (session.ready source) task machine)
    {reference : Reference}
    {name : String}
    {root : Site}
    (accessed : task.access? = some (reference, name))
    (member : root ∈ roots) :
    reference.id ∉ root.outcome.topLevel := by
  intro listed
  have located := located_root past.consistent accepts
  obtain ⟨site, ⟨owner, isOwner, sound, -, within, filed⟩, part, inside⟩ :=
    (visits.ready rfl located).charted accessed
  obtain ⟨earlier, text, accepted, rfl⟩ := past.exists_source member
  have inRoot : reference.id ∈ (earlier.root text).part.ids :=
    mem_ids_of_mem_topLevel (Array.mem_toList_iff.mpr listed)
  have notNew : reference.id ∉ (session.root source).part.ids := fun isNew =>
    past.consistent.disjoint_root accepts member isNew inRoot
  have isOld : owner ∈ roots := (List.mem_cons.mp isOwner).resolve_left fun isNew =>
    notNew (isNew ▸ within.ids_subset sound inside)
  have same := past.keeps.2.eq_of_mem isOld member (within.ids_subset sound inside) inRoot
  rw [same] at sound within filed
  -- The reference has a distance, which was not dropped, so it is inside of a function.
  have hasDistance := Task.filed_of_listed accessed part sound within inside listed
  rw [← filed _ inside, visits.distances, getElem?_ready past.consistent accepts,
    if_neg notNew] at hasDistance
  obtain ⟨distance, kept⟩ := Option.ne_none_iff_exists'.mp hasDistance
  obtain ⟨other, isOther, inBody, otherFiled⟩ := (past.keeps.1 _ distance).mp kept
  have sameOther := past.keeps.2.eq_of_mem isOther member (Part.bodyIds_subset _ inBody) inRoot
  rw [sameOther] at inBody otherFiled
  exact ((Site.filed_unlisted_iff (root_sound accepted) rfl rfl _ distance).mpr
    ⟨inBody, otherFiled⟩).2 listed

end Run

/-- Numbers of references never collide, and the table of distances keeps what
functions need.  Parsing any tokens gives different numbers to the references of
the program, all from the range that it reports.  Whatever runs have led to a
session, its table has the distances inside of functions of the accepted programs
and no others, and these programs have disjoint numbers.  So no run changes the
distances of the functions of an earlier program, neither while it lasts nor when
it is over, and no run looks up a number that an earlier run has dropped. -/
theorem bodies_keep_their_distances :
    (∀ tokens endToken firstId,
      Grammar.Spans firstId (parseTokens tokens endToken firstId).nextId
        (Stmt.listIds (parseTokens tokens endToken firstId).result)) ∧
    ∀ {session : Session} {roots : List Site}, History session roots ->
      session.Keeps roots ∧ Disjoint roots ∧
      (∀ source fuel result after, session.run fuel source = some (result, after) ->
        ∀ root ∈ roots, ∀ id ∈ root.part.bodyIds,
          after.machine.distances[id]? = session.machine.distances[id]?) ∧
      ∀ source fuel task machine, session.staticErrors source = [] ->
        Visits fuel session.echo (session.program source) (session.ready source) task machine ->
        (∀ root ∈ session.root source :: roots, ∀ id ∈ root.part.bodyIds,
          machine.distances[id]? = root.outcome.distances[id]?) ∧
        ∀ reference name, task.access? = some (reference, name) ->
          ∀ root ∈ roots, reference.id ∉ root.outcome.topLevel := by
  refine ⟨Parse.spans_parseTokens, fun {session roots} past => ?_⟩
  obtain ⟨keeps, disjoint⟩ := past.keeps
  refine ⟨keeps, disjoint, ?_, ?_⟩
  · intro source fuel result after runs root member id inBody
    rw [keeps.getElem? disjoint member inBody]
    by_cases accepts : session.staticErrors source = []
    · have later := (History.accepted past accepts runs).keeps
      exact later.1.getElem? later.2 (List.mem_cons_of_mem _ member) inBody
    · have later := (History.rejected past accepts runs).keeps
      exact later.1.getElem? later.2 member inBody
  · intro source fuel task machine accepts visits
    refine ⟨fun root member id => past.getElem?_visited accepts visits member, ?_⟩
    exact fun reference name accessed root => past.not_listed_of_visited accepts visits accessed

/-- A session in which nothing has run. -/
def untouched : Session :=
  .fresh { reading := fun _ => 0 } {}

/-- A text in which a local variable is read inside of a function and outside of
it. -/
def remembering : String :=
  "\x7b var a = 1; fn f(b) \x7b return a; \x7d print a; \x7d"

/-- The read in a function keeps its entry, and the one outside is forgotten. -/
theorem bodies_keep_their_distances_remembering :
    ∃ result after, untouched.run 20 remembering = some (result, after) ∧
      History after [untouched.root remembering] ∧
      0 ∈ (untouched.root remembering).part.bodyIds ∧
      after.machine.distances[0]? = some 1 ∧ after.machine.distances[1]? = none ∧
      ∀ source fuel later final, after.run fuel source = some (later, final) ->
        final.machine.distances[0]? = some 1 := by
  have accepts : untouched.staticErrors remembering = [] := List.isEmpty_iff.mp (by decide +kernel)
  have inBody : 0 ∈ (untouched.root remembering).part.bodyIds := by decide +kernel
  have kept : ((untouched.run 20 remembering).any fun one =>
      one.2.machine.distances[0]? == some 1 && one.2.machine.distances[1]? == none) = true := by
    decide +kernel
  obtain ⟨⟨result, after⟩, runs, distances⟩ := (Option.any_eq_true _ _).mp kept
  rw [Bool.and_eq_true, beq_iff_eq, beq_iff_eq] at distances
  have past : History after [untouched.root remembering] := .accepted (.fresh _ _) accepts runs
  refine ⟨result, after, runs, past, inBody, distances.1, distances.2, ?_⟩
  intro source fuel later final laterRuns
  obtain ⟨-, -, unchanged, -⟩ := bodies_keep_their_distances.2 past
  exact (unchanged source fuel later final laterRuns _ List.mem_cons_self 0 inBody).trans
    distances.1

end Session

end TreeWalk
