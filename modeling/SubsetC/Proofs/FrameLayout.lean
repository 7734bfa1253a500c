import SubsetC.Proofs.Mentions
import SubsetC.Proofs.Progress
import SubsetC.Proofs.Sizes
import Mathlib.Order.Bounds.Basic
import Mathlib.Algebra.Order.BigOperators.Group.List

/-!
# Layout of stack frames

A frame has one slot for every automatic object that a function mentions. The slots stand in the
order of first mention, each aligned as its type asks for, and grow down from the base of the frame
without overlapping; the frame is rounded up to a multiple of sixteen bytes and no further.

The layout is a fold over the objects. `Frame.Grown` is its invariant: besides the slots laid so far
it bounds the size by the sum of all sizes and alignments, which is what keeps the 64-bit arithmetic
from wrapping around. The main statement is `Function.frame_laysOut`.
-/

namespace SubsetC

/-! ### Objects of a frame -/

namespace Function

/-- The automatic objects that a function mentions. -/
def automatics (table : SymbolTable) (function : Function) : List Symbol :=
  (function.names.eraseDups.filterMap table.find?).filter fun symbol => symbol.storage = .automatic

/-- The objects are the automatic ones that a function mentions, in order of first mention. -/
structure Lists (function : Function) (table : SymbolTable) (objects : List Symbol) : Prop where
  mem : ∀ object, object ∈ objects ↔ function.Mentions object.name ∧
    table.find? object.name = some object ∧ object.storage = .automatic
  inOrder : objects.Pairwise fun first second => function.MentionsBefore first.name second.name

end Function

/-! ### Alignment -/

/-- Rounding up to a multiple of an alignment, where nothing wraps around. -/
theorem Frame.align_spec (size : Int) {alignment : Int} (nonnegative : 0 ≤ size)
    (positive : 0 < alignment) (room : size + alignment < 9223372036854775808) :
    ∃ aligned : Int, Frame.align size alignment = .ok aligned ∧ alignment ∣ aligned ∧
      size ≤ aligned ∧ aligned < size + alignment := by
  have quotient := Int.ediv_mul_add_emod (size + (alignment - 1)) alignment
  have remainder := Int.emod_nonneg (size + (alignment - 1)) (by omega : alignment ≠ 0)
  have small := Int.emod_lt_of_pos (size + (alignment - 1)) positive
  refine ⟨(size + (alignment - 1)) / alignment * alignment, ?_, Int.dvd_mul_left _ _, ?_, ?_⟩
  · have below : Size.sub alignment 1 = alignment - 1 :=
      Size.wrap_eq_self (by omega) (by omega)
    have sum : Size.add size (alignment - 1) = size + (alignment - 1) :=
      Size.wrap_eq_self (by omega) (by omega)
    have whole : Size.mul ((size + (alignment - 1)) / alignment) alignment =
        (size + (alignment - 1)) / alignment * alignment :=
      Size.wrap_eq_self (by omega) (by omega)
    unfold Frame.align Size.alignUp?
    rw [if_neg (Int.ne_of_gt positive), below, sum, Int.tdiv_eq_ediv_of_nonneg (by omega), whole]
    rfl
  all_goals omega

/-! ### Slots -/

/-- The slot is a home for the object. -/
structure Slot.Holds (slot : Slot) (object : Symbol) : Prop where
  name : slot.name = object.name
  /-- It is as large as the object. -/
  size : slot.size = object.type.size
  /-- It is aligned as the type of the object asks for. -/
  aligned : object.type.alignment ∣ slot.offset

/-- Two slots have no byte in common. -/
def Slot.Disjoint (first second : Slot) : Prop :=
  first.offset + first.size ≤ second.offset ∨ second.offset + second.size ≤ first.offset

/-- The bytes that slots for the objects may take, with the gaps that alignment leaves. -/
def Symbol.room (objects : List Symbol) : Int :=
  (objects.map fun object => object.type.size + object.type.alignment).sum

/-- The object has a type with a size, and with a positive one. -/
def Symbol.IsSized (object : Symbol) : Prop := object.type.isComplete ∧ 0 < object.type.size

theorem Symbol.room_append (first second : List Symbol) :
    room (first ++ second) = room first + room second := by
  simp [room]

theorem Symbol.room_nonneg {objects : List Symbol} (sized : ∀ object ∈ objects, object.IsSized) :
    0 ≤ room objects := by
  refine List.sum_nonneg ?_
  intro part mem
  rcases List.mem_map.1 mem with ⟨object, objectMem, rfl⟩
  rcases sized object objectMem with ⟨complete, positive⟩
  have aligned := CType.alignment_pos complete
  unfold Size at *
  omega

namespace Frame

/-- The frame is a layout for the objects. -/
structure LaysOut (frame : Frame) (objects : List Symbol) : Prop where
  /-- Every object has its slot, in order. -/
  slots : List.Forall₂ Slot.Holds frame.slots objects
  nodup : (frame.slots.map Slot.name).Nodup
  /-- Slots do not overlap. -/
  disjoint : frame.slots.Pairwise Slot.Disjoint
  /-- All slots lie within the frame, below its base. -/
  inside : ∀ slot ∈ frame.slots, -frame.size ≤ slot.offset ∧ slot.offset + slot.size ≤ 0
  /-- The frame is no larger than its slots and its alignment ask for. -/
  size : IsLeast {size : Int | 16 ∣ size ∧ 0 ≤ size ∧ ∀ slot ∈ frame.slots, -slot.offset ≤ size}
    frame.size

/-- The invariant of the layout: the frame has slots for the objects so far, and ends at the lowest
of them. -/
structure Grown (frame : Frame) (objects : List Symbol) : Prop where
  /-- Every object has its slot, in order. -/
  slots : List.Forall₂ Slot.Holds frame.slots objects
  /-- Every slot lies below those before it. -/
  descending : frame.slots.Pairwise fun earlier later => later.offset + later.size ≤ earlier.offset
  /-- All slots lie within the frame, below its base. -/
  inside : ∀ slot ∈ frame.slots, -frame.size ≤ slot.offset ∧ slot.offset + slot.size ≤ 0
  /-- Sizes count bytes. -/
  nonnegative : 0 ≤ frame.size
  /-- The frame ends with its slots. -/
  tight : ∀ size : Int, 0 ≤ size → (∀ slot ∈ frame.slots, -slot.offset ≤ size) → frame.size ≤ size
  /-- Alignment wastes less than each object's alignment. -/
  bounded : frame.size ≤ Symbol.room objects

theorem grown_nil : Grown ⟨[], 0⟩ [] :=
  ⟨.nil, .nil, nofun, Int.le_refl 0, fun _ nonnegative _ => nonnegative, Int.le_refl 0⟩

/-- One more object gets the next slot. -/
theorem Grown.addSymbol {frame : Frame} {objects : List Symbol} {object : Symbol}
    (grown : frame.Grown objects) (isAutomatic : object.storage = .automatic)
    (sized : object.IsSized)
    (room : Symbol.room objects + Symbol.room [object] < 9223372036854775792) :
    ∃ next, frame.addSymbol object = .ok next ∧ next.Grown (objects ++ [object]) := by
  rcases sized with ⟨complete, positive⟩
  have alignmentPositive := CType.alignment_pos complete
  have bounded := grown.bounded
  have nonnegative := grown.nonnegative
  have own : Symbol.room [object] = object.type.size + object.type.alignment := by
    simp [Symbol.room]
  unfold Size at *
  -- With room to spare, no size wraps around, and what is left is arithmetic on integers.
  have sum : Size.add frame.size object.type.size = frame.size + object.type.size :=
    Size.wrap_eq_self (by omega) (by omega)
  rcases align_spec (frame.size + object.type.size) (by omega) alignmentPositive
    (by omega) with ⟨aligned, aligns, divides, above, below⟩
  have offset : Size.sub 0 aligned = -aligned :=
    (Size.wrap_eq_self (by omega) (by omega)).trans (Int.zero_sub aligned)
  refine ⟨⟨frame.slots ++ [⟨object.name, -aligned, object.type.size⟩], aligned⟩, ?_, ?_⟩
  · simp only [Frame.addSymbol, isAutomatic, sum, aligns]
    rw [← offset]
    rfl
  refine ⟨?_, ?_, ?_, Int.le_trans (by omega) above, ?_, ?_⟩
  · exact List.rel_append grown.slots (.cons ⟨rfl, rfl, Int.dvd_neg.2 divides⟩ .nil)
  · refine List.pairwise_append.2 ⟨grown.descending, List.pairwise_singleton _ _, ?_⟩
    intro slot slotMem last lastMem
    obtain rfl := List.mem_singleton.1 lastMem
    have lowest := (grown.inside slot slotMem).1
    unfold Size at *
    dsimp only
    omega
  · refine List.forall_mem_append.2 ⟨?_, List.forall_mem_singleton.2 ?_⟩
    · intro slot slotMem
      have inside := grown.inside slot slotMem
      unfold Size at *
      dsimp only
      omega
    · exact ⟨Int.le_refl _, by unfold Size; dsimp only; omega⟩
  · intro size _ covers
    have last := covers _ (List.mem_append_right _ (List.mem_singleton_self _))
    unfold Size at *
    dsimp only at last ⊢
    omega
  · rw [Symbol.room_append, own]
    unfold Size
    dsimp only
    omega

/-- The fold over the names lays out those of their symbols that are automatic. -/
theorem Grown.addNames {table : SymbolTable} : ∀ (names : List Text) {frame : Frame}
    {objects : List Symbol}, frame.Grown objects →
    (∀ name ∈ names, ∃ symbol, table.find? name = some symbol) →
    (∀ object ∈ (names.filterMap table.find?).filter fun symbol => symbol.storage = .automatic,
      object.IsSized) →
    Symbol.room (objects ++
      (names.filterMap table.find?).filter fun symbol => symbol.storage = .automatic) <
        9223372036854775792 →
    ∃ next, Frame.addNames table frame names = .ok next ∧ next.Grown (objects ++
      (names.filterMap table.find?).filter fun symbol => symbol.storage = .automatic)
  | [], frame, objects, grown, _, _, _ => ⟨frame, rfl, by simpa using grown⟩
  | name :: names, frame, objects, grown, known, sized, room => by
      rcases List.forall_mem_cons.1 known with ⟨⟨symbol, found⟩, knownRest⟩
      rw [List.filterMap_cons_some found] at sized room ⊢
      simp only [Frame.addNames, found]
      by_cases isAutomatic : symbol.storage = .automatic
      · rw [List.filter_cons_of_pos (by simpa using isAutomatic)] at sized room ⊢
        rcases List.forall_mem_cons.1 sized with ⟨symbolSized, sizedRest⟩
        rw [List.append_cons] at room ⊢
        have restRoom := Symbol.room_nonneg sizedRest
        have ownRoom : Symbol.room objects + Symbol.room [symbol] < 9223372036854775792 := by
          rw [Symbol.room_append, Symbol.room_append] at room
          omega
        rcases grown.addSymbol isAutomatic symbolSized ownRoom with ⟨next, adds, nextGrown⟩
        rw [adds]
        exact nextGrown.addNames names knownRest sizedRest room
      · rw [List.filter_cons_of_neg (by simpa using isAutomatic)] at sized room ⊢
        have skips : frame.addSymbol symbol = .ok frame := by
          unfold Frame.addSymbol
          split
          · contradiction
          · rfl
        rw [skips]
        exact grown.addNames names knownRest sized room

/-- Rounding up at the end gives the least frame that has room. -/
theorem Grown.close {frame : Frame} {objects : List Symbol} (grown : frame.Grown objects)
    (names : (objects.map Symbol.name).Nodup)
    (room : Symbol.room objects < 9223372036854775792) :
    ∃ closed, frame.close = .ok closed ∧ closed.LaysOut objects := by
  have nonnegative := grown.nonnegative
  have bounded := grown.bounded
  unfold Size at *
  have positive : (0 : Int) < 16 := by omega
  rcases align_spec frame.size nonnegative positive (by omega) with
    ⟨aligned, aligns, divides, above, below⟩
  refine ⟨{ frame with size := aligned }, ?_, grown.slots, ?_, ?_, ?_, ?_, ?_⟩
  · unfold Frame.close frameAlignment
    rw [aligns]
    rfl
  · have sameNames : frame.slots.map Slot.name = objects.map Symbol.name := by
      refine List.forall₂_eq_eq_eq ▸ ?_
      refine List.forall₂_map_left_iff.2 (List.forall₂_map_right_iff.2 ?_)
      exact grown.slots.imp fun _ _ holds => holds.name
    exact sameNames ▸ names
  · exact grown.descending.imp .inr
  · intro slot mem
    have inside := grown.inside slot mem
    unfold Size at *
    dsimp only
    omega
  · refine ⟨divides, Int.le_trans nonnegative above, fun slot mem => ?_⟩
    have inside := grown.inside slot mem
    unfold Size at *
    dsimp only
    omega
  · rintro size ⟨isMultiple, sizeNonnegative, covers⟩
    have enough := grown.tight size sizeNonnegative covers
    unfold Size at *
    dsimp only
    omega

/-- The slot of an object is found by its name, since no other slot has the name. -/
theorem LaysOut.find? {frame : Frame} {objects : List Symbol} (laysOut : frame.LaysOut objects)
    {object : Symbol} (mem : object ∈ objects) :
    ∃ slot ∈ frame.slots, frame.find? object.name = some slot ∧ slot.Holds object := by
  rcases laysOut with ⟨slots, nodup, -, -, -⟩
  unfold Frame.find?
  generalize frame.slots = own at slots nodup
  induction slots with
  | nil => nomatch mem
  | @cons first firstObject rest restObjects holds _ ih =>
      rcases List.nodup_cons.1 nodup with ⟨fresh, nodupRest⟩
      rcases List.mem_cons.1 mem with rfl | restMem
      · exact ⟨first, List.mem_cons_self, by simp [holds.name], holds⟩
      · rcases ih restMem nodupRest with ⟨slot, slotMem, found, slotHolds⟩
        have differ : first.name ≠ object.name := by
          intro same
          exact fresh (same ▸ slotHolds.name ▸ List.mem_map_of_mem slotMem)
        exact ⟨slot, List.mem_cons_of_mem _ slotMem, by simp [differ, found], slotHolds⟩

end Frame

/-- Symbols are found under their own names. -/
theorem SymbolTable.name_of_find? {table : SymbolTable} {name : Text} {symbol : Symbol}
    (found : table.find? name = some symbol) : symbol.name = name := by
  simpa using List.find?_some found

theorem SymbolTable.names_sublist (table : SymbolTable) : ∀ names : List Text,
    ((names.filterMap table.find?).map Symbol.name).Sublist names
  | [] => .slnil
  | name :: names => by
      cases found : table.find? name with
      | none =>
          rw [List.filterMap_cons_none found]
          exact (names_sublist table names).cons name
      | some symbol =>
          rw [List.filterMap_cons_some found, List.map_cons, name_of_find? found]
          exact (names_sublist table names).cons_cons name

namespace Function

variable {table : SymbolTable} {function : Function}

theorem mem_automatics {object : Symbol} :
    object ∈ function.automatics table ↔
      function.Mentions object.name ∧ table.find? object.name = some object ∧
        object.storage = .automatic := by
  simp only [automatics, List.mem_filter, List.mem_filterMap, List.mem_eraseDups, mem_names,
    decide_eq_true_eq]
  constructor
  · rintro ⟨⟨name, mentions, found⟩, isAutomatic⟩
    rw [SymbolTable.name_of_find? found]
    exact ⟨mentions, found, isAutomatic⟩
  · rintro ⟨mentions, found, isAutomatic⟩
    exact ⟨⟨_, mentions, found⟩, isAutomatic⟩

/-- The names of the automatic objects are among all names. -/
theorem automatics_sublist (table : SymbolTable) (function : Function) :
    ((function.automatics table).map Symbol.name).Sublist function.names.eraseDups :=
  (List.filter_sublist.map Symbol.name).trans (table.names_sublist _)

theorem nodup_automatics (table : SymbolTable) (function : Function) :
    ((function.automatics table).map Symbol.name).Nodup := by
  have distinct := Frame.nodup_distinct function.names []
  rw [Frame.distinct_nil] at distinct
  exact (automatics_sublist table function).nodup distinct

theorem lists_automatics (table : SymbolTable) (function : Function) :
    function.Lists table (function.automatics table) :=
  ⟨fun _ => mem_automatics,
    List.pairwise_map.1 (function.mentionsBefore_names.sublist (automatics_sublist table function))⟩

/-- The frame of a function whose automatic objects have sizes, and do not fill the address space,
lays out these objects in order of first mention, and every one of them is found in it. -/
theorem frame_laysOut
    (known : ∀ name, function.Mentions name → ∃ symbol, table.find? name = some symbol)
    (sized : ∀ name symbol, function.Mentions name → table.find? name = some symbol →
      symbol.storage = .automatic → symbol.type.isComplete ∧ 0 < symbol.type.size)
    (room : ((function.automatics table).map fun object =>
      object.type.size + object.type.alignment).sum < 2 ^ 63 - 16) :
    ∃ frame, function.frame table = .ok frame ∧
      function.Lists table (function.automatics table) ∧
      frame.LaysOut (function.automatics table) ∧
      ∀ name symbol, function.Mentions name → table.find? name = some symbol →
        symbol.storage = .automatic →
        ∃ slot ∈ frame.slots, frame.find? name = some slot ∧ slot.Holds symbol := by
  have hasSymbols : ∀ name ∈ function.names.eraseDups, ∃ symbol, table.find? name = some symbol :=
    fun name mem => known name (mem_names.1 (List.mem_eraseDups.1 mem))
  have objectsSized : ∀ object ∈ function.automatics table, object.IsSized := by
    intro object mem
    rcases mem_automatics.1 mem with ⟨mentions, found, isAutomatic⟩
    exact sized object.name object mentions found isAutomatic
  have roomy : Symbol.room (function.automatics table) < 9223372036854775792 :=
    Int.lt_of_lt_of_le room (by decide)
  rcases Frame.grown_nil.addNames function.names.eraseDups hasSymbols objectsSized
    (by rwa [List.nil_append]) with ⟨laid, adds, grown⟩
  rw [List.nil_append] at grown
  rcases grown.close (nodup_automatics table function) roomy with ⟨frame, closes, laysOut⟩
  refine ⟨frame, ?_, lists_automatics table function, laysOut, ?_⟩
  · rw [Function.frame, Frame.distinct_nil, adds]
    exact closes
  · intro name symbol mentions found isAutomatic
    obtain rfl := SymbolTable.name_of_find? found
    exact laysOut.find? (mem_automatics.2 ⟨mentions, found, isAutomatic⟩)

/-- A character before a double leaves a gap, an array in parts is aligned as its elements are, and
a static object has no slot. -/
theorem frame_laysOut_gap :
    ∃ (table : SymbolTable) (function : Function) (frame : Frame),
      function.frame table = .ok frame ∧ function.Lists table (function.automatics table) ∧
        frame.LaysOut (function.automatics table) ∧
        frame = ⟨[⟨"c", -1, 1⟩, ⟨"d", -16, 8⟩, ⟨"x.0", -28, 12⟩], 32⟩ := by
  let table : SymbolTable := ⟨[⟨"c", .char, .automatic⟩, ⟨"d", .double, .automatic⟩,
    ⟨"s", .int, .static .tentative true⟩, ⟨"x.0", .array 3 .int, .automatic⟩]⟩
  let function : Function := ⟨"f", true, ["c", "d"],
    [.copyToOffset (.var "s") "x.0" 4, .copyFromOffset "x.0" 4 (.var "s"), .ret (.var "c")]⟩
  have inTable : ∀ name ∈ function.names, ∃ symbol ∈ table.symbols,
      table.find? name = some symbol := by decide
  have allSized : ∀ symbol ∈ table.symbols, symbol.type.isComplete ∧ 0 < symbol.type.size := by
    decide
  have known : ∀ name, function.Mentions name → ∃ symbol, table.find? name = some symbol :=
    fun name mentions => (inTable name (mem_names.2 mentions)).imp fun _ => And.right
  have sized : ∀ name symbol, function.Mentions name → table.find? name = some symbol →
      symbol.storage = .automatic → symbol.type.isComplete ∧ 0 < symbol.type.size :=
    fun _ symbol _ found _ => allSized symbol (List.mem_of_find?_eq_some found)
  rcases frame_laysOut known sized (by decide) with ⟨frame, lays, lists, laysOut, _⟩
  refine ⟨table, function, frame, lays, lists, laysOut, ?_⟩
  have computed : function.frame table =
      .ok ⟨[⟨"c", -1, 1⟩, ⟨"d", -16, 8⟩, ⟨"x.0", -28, 12⟩], 32⟩ := rfl
  exact Except.ok.inj (lays.symm.trans computed)

end Function

end SubsetC
