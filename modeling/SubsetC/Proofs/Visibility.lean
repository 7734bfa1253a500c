import SubsetC.Proofs.Scoping
import Mathlib.Data.List.Induction

/-!
# Visibility of declarations

The scoping rules of blocks, stated on the sequence of events that matter for them: scopes begin
and end, and names are declared and used. A declaration is in scope at a later place as long as its
scope has not ended, and a use stands for a declaration of its name in the innermost scope around
that has one by then. `WellScoped` says which sequences obey the rules, and `Resolves` when a second
sequence is the first one with internal names. Both are about places in the sequence only.

A `Walk` goes through a sequence with a stack of scopes. The main statement is `Walk.run?_resolves`:
the walk stops early exactly at a violation of the rules, and otherwise ends with the resolved
sequence. The invariant behind it, `Walk.Tracks`, says that the scope at a distance in the stack
binds the names declared by the declarations in scope at that distance.
-/

namespace SubsetC

/-- What matters for scoping in a source, in the order of the text. -/
inductive Event where
  /-- A scope begins inside the innermost one. -/
  | enter
  /-- The innermost scope ends. -/
  | leave
  /-- A name is declared in the innermost scope. -/
  | declare (name : Text) (hasLinkage : Bool)
  /-- An expression mentions a name. -/
  | use (name : Text)
  deriving DecidableEq, Repr

namespace Event

/-! ### The rules -/

/-- How many scopes are open inside a given one after an event, if so many were before it. There is
no answer once the given scope itself ends. -/
def nest? : Nat → Event → Option Nat
  | count, .enter => some (count + 1)
  | 0, .leave => none
  | count + 1, .leave => some count
  | count, .declare _ _ | count, .use _ => some count

/-- A declaration whose scope is still open after the events. The distance is the number of scopes
that are open inside its own. -/
structure InScope (events : List Event) (index : Nat) (name : Text) (hasLinkage : Bool)
    (distance : Nat) : Prop where
  /-- The place of the declaration. -/
  declares : events[index]? = some (.declare name hasLinkage)
  /-- The scope has not ended since. -/
  isOpen : (events.drop (index + 1)).foldlM nest? 0 = some distance

/-- A declaration in the innermost scope around that declares the name. -/
def Selects (events : List Event) (name : Text) (index : Nat) : Prop :=
  ∃ hasLinkage distance, InScope events index name hasLinkage distance ∧
    ∀ other otherLinkage otherDistance,
      InScope events other name otherLinkage otherDistance → distance ≤ otherDistance

/-- What the rules demand of an event that follows others. A used name is declared in some scope
around. A name may be declared twice in one scope only if both declarations have linkage. -/
def Allowed (before : List Event) : Event → Prop
  | .enter | .leave => True
  | .declare name hasLinkage =>
      ∀ index earlier, InScope before index name earlier 0 → hasLinkage ∧ earlier
  | .use name => ∃ index hasLinkage distance, InScope before index name hasLinkage distance

/-- Every event obeys the rules. -/
def WellScoped (events : List Event) : Prop :=
  ∀ (place : Nat) (event : Event), events[place]? = some event → event.Allowed (events.take place)

/-- What an event becomes after others that have been given internal names. A name with linkage is
kept, and a use carries the internal name of the declaration that it stands for. -/
inductive Becomes (before resolved : List Event) : Event → Event → Prop where
  | enter : Becomes before resolved .enter .enter
  | leave : Becomes before resolved .leave .leave
  | linked (name : Text) : Becomes before resolved (.declare name true) (.declare name true)
  | unlinked (name internal : Text) :
      Becomes before resolved (.declare name false) (.declare internal false)
  | use {name internal : Text} (isDeclared : ∃ index, Selects before name index)
      (carries : ∀ index, Selects before name index →
        ∃ hasLinkage, resolved[index]? = some (.declare internal hasLinkage)) :
      Becomes before resolved (.use name) (.use internal)

/-- Each event becomes what the rules say. -/
def AllBecome (events resolved : List Event) : Prop :=
  ∀ (place : Nat) (event event' : Event), events[place]? = some event →
    resolved[place]? = some event' →
      Becomes (events.take place) (resolved.take place) event event'

/-- The name that an event declares with linkage, or without. -/
def declared? (hasLinkage : Bool) : Event → Option Text
  | .declare name itsLinkage => if itsLinkage = hasLinkage then some name else none
  | .enter | .leave | .use _ => none

/-- The names that events declare with linkage, or without. -/
def declared (hasLinkage : Bool) (events : List Event) : List Text :=
  events.filterMap (declared? hasLinkage)

/-- The second events are the first ones with internal names, as the rules have it. -/
structure Resolves (events resolved : List Event) : Prop where
  length : resolved.length = events.length
  /-- Names with linkage are kept, and uses carry the names of their declarations. -/
  allBecome : AllBecome events resolved
  /-- The internal names without linkage are pairwise different. -/
  distinct : (declared false resolved).Nodup
  /-- They differ from all names with linkage. -/
  apart : ∀ name ∈ declared false resolved, name ∉ declared true resolved

/-! ### One more event -/

variable {events resolved : List Event} {event event' : Event}

theorem mem_declared {hasLinkage : Bool} {name : Text} :
    name ∈ declared hasLinkage events ↔ .declare name hasLinkage ∈ events := by
  constructor
  · intro mem
    rcases List.mem_filterMap.1 mem with ⟨event, eventMem, declares⟩
    cases event with
    | declare other itsLinkage =>
        rcases Option.ite_none_right_eq_some.1 declares with ⟨rfl, same⟩
        cases same
        exact eventMem
    | enter | leave | use => cases declares
  · intro mem
    exact List.mem_filterMap.2 ⟨_, mem, if_pos rfl⟩

theorem getElem?_append_singleton {place : Nat} {found : Event} :
    (events ++ [event])[place]? = some found ↔
      place < events.length ∧ events[place]? = some found ∨
        place = events.length ∧ event = found := by
  rw [List.getElem?_append]
  split
  · have differ : place ≠ events.length := by omega
    simp [*]
  · rw [List.getElem?_singleton]
    split
    · have same : place = events.length := by omega
      simp [same]
    · have differ : place ≠ events.length := by omega
      simp [*]

theorem wellScoped_append_singleton :
    WellScoped (events ++ [event]) ↔ WellScoped events ∧ event.Allowed events := by
  constructor
  · intro wellScoped
    refine ⟨?_, ?_⟩
    · intro place earlier found
      have before : place < events.length := (List.getElem?_eq_some_iff.1 found).1
      have allowed := wellScoped place earlier (by rwa [List.getElem?_append_left before])
      rwa [List.take_append_of_le_length (Nat.le_of_lt before)] at allowed
    · simpa using wellScoped events.length event (by simp)
  · rintro ⟨wellScoped, allowed⟩ place earlier found
    rcases getElem?_append_singleton.1 found with ⟨before, found⟩ | ⟨rfl, rfl⟩
    · rw [List.take_append_of_le_length (Nat.le_of_lt before)]
      exact wellScoped place earlier found
    · simpa using allowed

/-- A declaration is in scope after one more event if it is that event, or was in scope before and
the event does not end its scope. -/
theorem inScope_append_singleton {index : Nat} {name : Text} {hasLinkage : Bool} {distance : Nat} :
    InScope (events ++ [event]) index name hasLinkage distance ↔
      (index = events.length ∧ event = .declare name hasLinkage ∧ distance = 0) ∨
        ∃ earlier, InScope events index name hasLinkage earlier ∧
          nest? earlier event = some distance := by
  have drops : index < events.length →
      (events ++ [event]).drop (index + 1) = events.drop (index + 1) ++ [event] :=
    fun before => List.drop_append_of_le_length before
  constructor
  · rintro ⟨declares, isOpen⟩
    rcases getElem?_append_singleton.1 declares with ⟨before, declares⟩ | ⟨rfl, rfl⟩
    · rw [drops before, List.foldlM_append] at isOpen
      rcases Option.bind_eq_some_iff.1 isOpen with ⟨earlier, wasOpen, nests⟩
      exact .inr ⟨earlier, ⟨declares, wasOpen⟩, by simpa using nests⟩
    · refine .inl ⟨rfl, rfl, ?_⟩
      simpa [eq_comm] using isOpen
  · rintro (⟨rfl, rfl, rfl⟩ | ⟨earlier, ⟨declares, wasOpen⟩, nests⟩)
    · exact ⟨by simp, by simp⟩
    · have before : index < events.length := (List.getElem?_eq_some_iff.1 declares).1
      refine ⟨by rwa [List.getElem?_append_left before], ?_⟩
      rw [drops before, List.foldlM_append, wasOpen]
      simpa using nests

theorem AllBecome.append_singleton (become : AllBecome events resolved)
    (length : resolved.length = events.length) (becomes : Becomes events resolved event event') :
    AllBecome (events ++ [event]) (resolved ++ [event']) := by
  intro place found found' atEvents atResolved
  rcases getElem?_append_singleton.1 atEvents with ⟨before, atEvents⟩ | ⟨rfl, rfl⟩
  · rw [List.getElem?_append_left (length ▸ before)] at atResolved
    rw [List.take_append_of_le_length (Nat.le_of_lt before),
      List.take_append_of_le_length (length ▸ Nat.le_of_lt before)]
    exact become place found found' atEvents atResolved
  · rcases getElem?_append_singleton.1 atResolved with ⟨before, _⟩ | ⟨_, rfl⟩
    · omega
    · simpa [← length] using becomes

end Event

/-! ### Stacks of scopes -/

namespace Scopes

/-- The scopes without the innermost one. Around the file scope there is an empty one. -/
def leave (scopes : Scopes) : Scopes :=
  match scopes.outer with
  | [] => file
  | inner :: outer => ⟨inner, outer⟩

/-- What a name stands for in the scope at a distance from the innermost one. -/
def declaredAt? (scopes : Scopes) (distance : Nat) (name : Text) : Option Binding :=
  (scopes.inner :: scopes.outer)[distance]?.bind fun scope => scope.lookup name

variable {scopes : Scopes} {name other : Text} {binding : Binding} {distance : Nat}

@[simp]
theorem declaredAt?_file : file.declaredAt? distance name = none := by
  cases distance <;> rfl

@[simp]
theorem declaredAt?_zero : scopes.declaredAt? 0 name = scopes.local? name := rfl

@[simp]
theorem local?_enter : scopes.enter.local? name = none := rfl

@[simp]
theorem declaredAt?_enter_succ :
    scopes.enter.declaredAt? (distance + 1) name = scopes.declaredAt? distance name := rfl

@[simp]
theorem declaredAt?_leave :
    scopes.leave.declaredAt? distance name = scopes.declaredAt? (distance + 1) name := by
  rcases scopes with ⟨inner, outer⟩
  cases outer with
  | nil => exact declaredAt?_file
  | cons scope outer => rfl

theorem local?_declare : (scopes.declare name binding).local? other =
    if other = name then some binding else scopes.local? other := by
  by_cases same : other = name
  · simp [local?, declare, same]
  · have differ : (other == name) = false := beq_eq_false_iff_ne.2 same
    simp only [local?, declare, List.lookup_cons, differ, same, if_false]

theorem declaredAt?_declare : (scopes.declare name binding).declaredAt? distance other =
    if distance = 0 ∧ other = name then some binding else scopes.declaredAt? distance other := by
  cases distance with
  | zero => simp [local?_declare]
  | succ distance => simp [declaredAt?, declare]

/-- The innermost scope that declares the name decides. -/
theorem exists_declaredAt?_of_find? (found : scopes.find? name = some binding) :
    ∃ distance, scopes.declaredAt? distance name = some binding ∧
      ∀ closer < distance, scopes.declaredAt? closer name = none := by
  rcases List.findSome?_eq_some_iff.1 found with ⟨inside, scope, outside, shape, finds, absent⟩
  refine ⟨inside.length, by simp [declaredAt?, shape, finds], ?_⟩
  intro closer before
  rw [declaredAt?, shape, List.getElem?_append_left before]
  simpa [before] using absent _ (List.getElem_mem before)

theorem find?_isSome_of_declaredAt? (found : scopes.declaredAt? distance name = some binding) :
    (scopes.find? name).isSome := by
  rcases Option.bind_eq_some_iff.1 found with ⟨scope, atDistance, finds⟩
  exact List.findSome?_isSome_iff.2 ⟨scope, List.mem_of_getElem? atDistance, by simp [finds]⟩

end Scopes

/-! ### Walks -/

/-- A resolution on its way through events. -/
structure Walk where
  /-- The scopes around the place that is reached. -/
  scopes : Scopes
  /-- The number the next fresh name takes. -/
  next : Nat
  /-- The events so far, with internal names. -/
  resolved : List Event

namespace Walk

/-- The walk at the beginning of a file. -/
def start (next : Nat) : Walk := ⟨.file, next, []⟩

/-- The walk after an event that is given, with its internal name, and leads to other scopes. -/
def add (walk : Walk) (scopes : Scopes) (event : Event) : Walk :=
  { walk with scopes, resolved := walk.resolved ++ [event] }

/-- The walk after the declaration of a name. Without linkage the name gets an internal name of its
own. -/
def declare (walk : Walk) (name : Text) : Bool → Walk
  | true => walk.add (walk.scopes.declare name ⟨name, true⟩) (.declare name true)
  | false =>
      { walk.add (walk.scopes.declare name ⟨name.numbered walk.next, false⟩)
          (.declare (name.numbered walk.next) false) with next := walk.next + 1 }

/-- Whether a name may be declared, given what it stands for in the innermost scope. -/
def admits (walk : Walk) (name : Text) (hasLinkage : Bool) : Bool :=
  (walk.scopes.local? name).all fun previous => hasLinkage && previous.hasLinkage

theorem admits_linked (walk : Walk) (name : Text) :
    walk.admits name true = !(walk.scopes.local? name).any (!·.hasLinkage) := by
  unfold admits
  cases walk.scopes.local? name <;> simp

theorem admits_unlinked (walk : Walk) (name : Text) :
    walk.admits name false = (walk.scopes.local? name).isNone := by
  unfold admits
  cases walk.scopes.local? name <;> rfl

/-- The walk after one more event, unless the event is against the rules. -/
def step? (walk : Walk) : Event → Option Walk
  | .enter => some (walk.add walk.scopes.enter .enter)
  | .leave => some (walk.add walk.scopes.leave .leave)
  | .declare name hasLinkage =>
      if walk.admits name hasLinkage then some (walk.declare name hasLinkage) else none
  | .use name => (walk.scopes.find? name).map fun binding =>
      walk.add walk.scopes (.use binding.name)

/-- The walk after more events, unless one of them is against the rules. -/
def run? (walk : Walk) (events : List Event) : Option Walk := events.foldlM step? walk

/-- What is known of a walk that started with a number and went through the events. -/
structure Tracks (start : Nat) (events : List Event) (walk : Walk) : Prop where
  length : walk.resolved.length = events.length
  /-- A declaration in scope is bound in its scope. -/
  binds : ∀ index name hasLinkage distance, Event.InScope events index name hasLinkage distance →
    ∃ binding, walk.scopes.declaredAt? distance name = some binding ∧
      binding.hasLinkage = hasLinkage ∧
      walk.resolved[index]? = some (.declare binding.name hasLinkage)
  /-- What is bound in a scope is declared there. -/
  declares : ∀ distance name binding, walk.scopes.declaredAt? distance name = some binding →
    ∃ index, Event.InScope events index name binding.hasLinkage distance
  /-- A name with linkage stands for itself. -/
  keeps : ∀ distance name binding, walk.scopes.declaredAt? distance name = some binding →
    binding.hasLinkage → binding.name = name
  /-- The other names are drawn. -/
  drawn : Text.Drawn start walk.next (Event.declared false walk.resolved)

variable {start : Nat} {events : List Event} {event event' : Event} {walk later : Walk}

theorem tracks_start (start : Nat) : (Walk.start start).Tracks start [] := by
  refine ⟨rfl, ?_, ?_, ?_, .nil start⟩
  · rintro index name hasLinkage distance ⟨declares, _⟩
    cases declares
  · intro distance name binding found
    simp [Walk.start] at found
  · intro distance name binding found
    simp [Walk.start] at found

namespace Tracks

/-- An event that is no declaration moves the scopes together with the declarations in them. -/
theorem shift {scopes : Scopes} (tracks : walk.Tracks start events)
    (noDeclaration : ∀ name hasLinkage, event ≠ .declare name hasLinkage)
    (silent : Event.declared? false event' = none)
    (moves : ∀ distance name binding, scopes.declaredAt? distance name = some binding ↔
      ∃ earlier, event.nest? earlier = some distance ∧
        walk.scopes.declaredAt? earlier name = some binding) :
    (walk.add scopes event').Tracks start (events ++ [event]) := by
  refine ⟨by simp [add, tracks.length], ?_, ?_, ?_, ?_⟩
  · intro index name hasLinkage distance inScope
    rcases Event.inScope_append_singleton.1 inScope with ⟨_, declares, _⟩ | ⟨earlier, was, nests⟩
    · exact absurd declares (noDeclaration name hasLinkage)
    · rcases tracks.binds index name hasLinkage earlier was with ⟨binding, found, linkage, names⟩
      refine ⟨binding, (moves distance name binding).2 ⟨earlier, nests, found⟩, linkage, ?_⟩
      rw [add, List.getElem?_append_left (List.getElem?_eq_some_iff.1 names).1]
      exact names
  · intro distance name binding found
    rcases (moves distance name binding).1 found with ⟨earlier, nests, found⟩
    rcases tracks.declares earlier name binding found with ⟨index, was⟩
    exact ⟨index, Event.inScope_append_singleton.2 (.inr ⟨earlier, was, nests⟩)⟩
  · intro distance name binding found
    rcases (moves distance name binding).1 found with ⟨earlier, _, found⟩
    exact tracks.keeps earlier name binding found
  · simpa [add, Event.declared, silent] using tracks.drawn

/-- A declaration binds its name in the innermost scope. If the name was bound there before, both
declarations have linkage and the internal name is the same. -/
theorem bind {name internal : Text} {hasLinkage : Bool} {next : Nat}
    (tracks : walk.Tracks start events) (admits : walk.admits name hasLinkage)
    (kept : hasLinkage → internal = name)
    (drawn : Text.Drawn start next
      (Event.declared false (walk.resolved ++ [Event.declare internal hasLinkage]))) :
    Tracks start (events ++ [Event.declare name hasLinkage])
      { walk.add (walk.scopes.declare name ⟨internal, hasLinkage⟩)
          (.declare internal hasLinkage) with next } := by
  have compatible : ∀ previous, walk.scopes.local? name = some previous →
      hasLinkage ∧ previous.hasLinkage := by
    simpa [Walk.admits, Option.all_eq_true] using admits
  refine ⟨by simp [add, tracks.length], ?_, ?_, ?_, drawn⟩
  · intro index other otherLinkage distance inScope
    rcases Event.inScope_append_singleton.1 inScope with ⟨rfl, same, rfl⟩ | ⟨earlier, was, nests⟩
    · cases same
      exact ⟨⟨internal, hasLinkage⟩, by simp [add, Scopes.local?_declare], rfl,
        by simp [add, ← tracks.length]⟩
    · cases nests
      rcases tracks.binds index other otherLinkage distance was with
        ⟨previous, found, linkage, names⟩
      have inside : index < walk.resolved.length := (List.getElem?_eq_some_iff.1 names).1
      simp only [add, List.getElem?_append_left inside, names, Scopes.declaredAt?_declare]
      split
      · rename_i again
        rcases again with ⟨rfl, rfl⟩
        -- The new binding hides the previous one, but both have linkage and so the same name.
        rcases compatible previous found with ⟨isLinked, wasLinked⟩
        refine ⟨⟨internal, hasLinkage⟩, rfl, ?_, ?_⟩
        · rw [← linkage, wasLinked, isLinked]
        · rw [tracks.keeps 0 other previous found wasLinked, kept isLinked]
      · exact ⟨previous, found, linkage, rfl⟩
  · intro distance other binding found
    simp only [add, Scopes.declaredAt?_declare] at found
    split at found
    · rename_i own
      rcases own with ⟨rfl, rfl⟩
      cases found
      exact ⟨events.length, Event.inScope_append_singleton.2 (.inl ⟨rfl, rfl, rfl⟩)⟩
    · rcases tracks.declares distance other binding found with ⟨index, was⟩
      exact ⟨index, Event.inScope_append_singleton.2 (.inr ⟨distance, was, rfl⟩)⟩
  · intro distance other binding found isLinked
    simp only [add, Scopes.declaredAt?_declare] at found
    split at found
    · rename_i own
      cases found
      exact (kept isLinked).trans own.2.symm
    · exact tracks.keeps distance other binding found isLinked

/-- Whether a name may be declared depends on what it stands for in the innermost scope. -/
theorem allowed_declare {name : Text} {hasLinkage : Bool} (tracks : walk.Tracks start events) :
    (Event.declare name hasLinkage).Allowed events ↔ walk.admits name hasLinkage := by
  simp only [admits, Option.all_eq_true, Bool.and_eq_true]
  constructor
  · intro allowed previous found
    rcases tracks.declares 0 name previous found with ⟨index, inScope⟩
    exact allowed index previous.hasLinkage inScope
  · intro compatible index earlier inScope
    rcases tracks.binds index name earlier 0 inScope with ⟨previous, found, rfl, _⟩
    exact compatible previous found

theorem allowed_use {name : Text} (tracks : walk.Tracks start events) :
    (Event.use name).Allowed events ↔ (walk.scopes.find? name).isSome := by
  constructor
  · rintro ⟨index, hasLinkage, distance, inScope⟩
    rcases tracks.binds index name hasLinkage distance inScope with ⟨binding, found, _⟩
    exact Scopes.find?_isSome_of_declaredAt? found
  · intro isSome
    rcases Option.isSome_iff_exists.1 isSome with ⟨binding, found⟩
    rcases Scopes.exists_declaredAt?_of_find? found with ⟨distance, bound, _⟩
    rcases tracks.declares distance name binding bound with ⟨index, inScope⟩
    exact ⟨index, binding.hasLinkage, distance, inScope⟩

/-- The innermost scope in the stack that binds a name is that of the declarations in scope that
are selected. -/
theorem becomes_use {name : Text} {binding : Binding} (tracks : walk.Tracks start events)
    (found : walk.scopes.find? name = some binding) :
    Event.Becomes events walk.resolved (.use name) (.use binding.name) := by
  rcases Scopes.exists_declaredAt?_of_find? found with ⟨nearest, bound, none_closer⟩
  have least : ∀ index hasLinkage distance,
      Event.InScope events index name hasLinkage distance → nearest ≤ distance := by
    intro index hasLinkage distance inScope
    rcases tracks.binds index name hasLinkage distance inScope with ⟨other, otherBound, _⟩
    by_contra closer
    simp [none_closer distance (by omega)] at otherBound
  rcases tracks.declares nearest name binding bound with ⟨index, inScope⟩
  refine .use ⟨index, _, _, inScope, least⟩ ?_
  rintro other ⟨hasLinkage, distance, otherScope, otherLeast⟩
  obtain rfl : distance = nearest :=
    Nat.le_antisymm (otherLeast _ _ _ inScope) (least _ _ _ otherScope)
  rcases tracks.binds other name hasLinkage distance otherScope with
    ⟨otherBinding, otherBound, _, names⟩
  obtain rfl : otherBinding = binding := Option.some.inj (otherBound.symm.trans bound)
  exact ⟨hasLinkage, names⟩

/-- One step. The walk goes on exactly if the event is allowed, and writes what it becomes. -/
theorem step (tracks : walk.Tracks start events) (event : Event) :
    match walk.step? event with
    | none => ¬event.Allowed events
    | some later => event.Allowed events ∧ later.Tracks start (events ++ [event]) ∧
        ∃ event', later.resolved = walk.resolved ++ [event'] ∧
          Event.Becomes events walk.resolved event event' := by
  cases event with
  | enter =>
      refine ⟨trivial, tracks.shift (by simp) rfl ?_, .enter, rfl, .enter⟩
      intro distance name binding
      cases distance <;> simp [Event.nest?]
  | leave =>
      refine ⟨trivial, tracks.shift (by simp) rfl ?_, .leave, rfl, .leave⟩
      intro distance name binding
      rw [Scopes.declaredAt?_leave]
      constructor
      · intro found
        exact ⟨distance + 1, rfl, found⟩
      · rintro ⟨earlier, nests, found⟩
        cases earlier with
        | zero => cases nests
        | succ earlier =>
            cases nests
            exact found
  | declare name hasLinkage =>
      rw [tracks.allowed_declare]
      cases admits : walk.admits name hasLinkage with
      | false => simp [step?, admits]
      | true =>
          rw [step?, if_pos admits]
          cases hasLinkage with
          | true =>
              refine ⟨rfl, tracks.bind admits (fun _ => rfl) ?_, _, rfl, .linked name⟩
              simpa [Event.declared, Event.declared?] using tracks.drawn
          | false =>
              refine ⟨rfl, tracks.bind admits (by simp) ?_, _, rfl, .unlinked name _⟩
              simpa [Event.declared, Event.declared?] using
                tracks.drawn.append (.single name walk.next)
  | use name =>
      rw [tracks.allowed_use]
      cases found : walk.scopes.find? name with
      | none => simp [step?, found]
      | some binding =>
          simp only [step?, found, Option.map_some]
          refine ⟨rfl, tracks.shift (by simp) rfl ?_, _, rfl, tracks.becomes_use found⟩
          simp [Event.nest?]

end Tracks

theorem run?_append (walk : Walk) (first second : List Event) :
    walk.run? (first ++ second) = (walk.run? first).bind fun later => later.run? second :=
  List.foldlM_append

/-- A walk through a file stops at the first event against the rules. -/
theorem run?_tracks (start : Nat) (events : List Event) :
    match (Walk.start start).run? events with
    | none => ¬Event.WellScoped events
    | some walk => Event.WellScoped events ∧ walk.Tracks start events ∧
        Event.AllBecome events walk.resolved := by
  induction events using List.reverseRecOn with
  | nil =>
      refine ⟨?_, tracks_start start, ?_⟩
      · intro place event found
        cases found
      · intro place event event' found
        cases found
  | append_singleton events event ih =>
      rw [run?_append, Event.wellScoped_append_singleton]
      cases runs : (Walk.start start).run? events with
      | none =>
          simp only [runs] at ih
          exact fun wellScoped => ih wellScoped.1
      | some walk =>
          simp only [runs] at ih
          rcases ih with ⟨wellScoped, tracks, become⟩
          have step := tracks.step event
          have once : walk.run? [event] = walk.step? event := by
            simp [run?]
          rw [Option.bind_some, once]
          cases steps : walk.step? event with
          | none =>
              simp only [steps] at step
              exact fun both => step both.2
          | some later =>
              simp only [steps] at step
              rcases step with ⟨allowed, laterTracks, event', adds, becomes⟩
              refine ⟨⟨wellScoped, allowed⟩, laterTracks, ?_⟩
              rw [adds]
              exact become.append_singleton tracks.length becomes

/-- A walk through a file goes on to the end exactly if the rules are obeyed, and then writes the
events with internal names. -/
theorem run?_resolves (start : Nat) {events : List Event}
    (plain : ∀ name ∈ Event.declared true events, name.IsPlain) :
    match (Walk.start start).run? events with
    | none => ¬Event.WellScoped events
    | some walk => Event.WellScoped events ∧ Event.Resolves events walk.resolved := by
  have tracked := run?_tracks start events
  cases runs : (Walk.start start).run? events with
  | none => simpa only [runs] using tracked
  | some walk =>
      simp only [runs] at tracked
      rcases tracked with ⟨wellScoped, tracks, become⟩
      refine ⟨wellScoped, tracks.length, become, tracks.drawn.nodup, ?_⟩
      intro name unlinked linked
      -- A drawn name holds a dot, and a name with linkage is that of the same event before.
      refine (tracks.drawn.isNumbered name unlinked).not_plain (plain name ?_)
      rcases List.mem_iff_getElem?.1 (Event.mem_declared.1 linked) with ⟨place, found⟩
      have inside : place < events.length :=
        tracks.length ▸ (List.getElem?_eq_some_iff.1 found).1
      have source := List.getElem?_eq_getElem inside
      generalize events[place] = event at source
      have becomes := become place event _ source found
      cases becomes with
      | linked => exact Event.mem_declared.2 (List.mem_of_getElem? source)

end Walk

end SubsetC
