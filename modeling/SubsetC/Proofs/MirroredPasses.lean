import SubsetC.Proofs.NamePermutations
import SubsetC.Proofs.Outcome

/-!
# Passes that mirror each other

Passes do not look at names except to compare them and to make new names from them. `Pass.Mirrored`
says of two passes that one does with changed names what the other one does: they fail alike, or draw
the same numbers, and lead to results and symbols whose names change along. Each primitive mirrors
itself, and so does what is built from them.

Which numbers belong to objects of a source is known only once the source is resolved. So a change of
names leaves open what becomes of the numbers that a pass draws: `NameChange.Carries` is for passes
that draw them for objects of the source, and `NameChange.Spares` for those that draw them for
temporaries and strings.
-/

namespace SubsetC

/-! ### Failures that are alike -/

/-- A failure is reported like another one: as an error of the same kind, with the same code, at the
same place. -/
structure Failure.Resembles (failure other : Failure) : Prop where
  /-- The kind of error. -/
  kind : failure.diagnostic.kind = other.diagnostic.kind
  code : failure.diagnostic.code = other.diagnostic.code
  span : failure.diagnostic.span = other.diagnostic.span

theorem Failure.Resembles.refl (failure : Failure) : failure.Resembles failure := ⟨rfl, rfl, rfl⟩

/-! ### Symbols with changed names -/

section

variable (change : Text → Text)

/-- The item with the name it points at changed. -/
def StaticItem.rename : StaticItem → StaticItem
  | .pointer name => .pointer (change name)
  | item => item

/-- The initial value with the names in it changed. -/
def InitialValue.rename : InitialValue → InitialValue
  | .initial items => .initial (items.map (StaticItem.rename change))
  | .tentative => .tentative
  | .absent => .absent

/-- The storage with the names in it changed. -/
def Storage.rename : Storage → Storage
  | .static init isGlobal => .static (init.rename change) isGlobal
  | .constant item => .constant (item.rename change)
  | .function defined isGlobal => .function defined isGlobal
  | .automatic => .automatic

/-- The symbol with its names changed. -/
def Symbol.rename (symbol : Symbol) : Symbol :=
  ⟨change symbol.name, symbol.type, symbol.storage.rename change⟩

/-- The table with the names of its symbols changed. -/
def SymbolTable.rename (table : SymbolTable) : SymbolTable :=
  ⟨table.symbols.map (Symbol.rename change)⟩

/-- The context with the names of its symbols changed. -/
def Context.rename (context : Context) : Context :=
  { context with symbols := context.symbols.rename change }

end

namespace SymbolTable

variable {change : Text → Text} (injective : Function.Injective change)

include injective

theorem find?_rename (table : SymbolTable) (name : Text) :
    (table.rename change).find? (change name) =
      (table.find? name).map (Symbol.rename change) := by
  have same : ∀ symbol : Symbol,
      decide ((symbol.rename change).name = change name) = decide (symbol.name = name) :=
    fun symbol => decide_eq_decide.2 injective.eq_iff
  rw [find?, find?, rename, List.find?_map]
  exact congrArg (Option.map _ <| List.find? · _) (funext same)

theorem put_rename (symbol : Symbol) : ∀ rows : List Symbol,
    put (symbol.rename change) (rows.map (Symbol.rename change)) =
      (put symbol rows).map (Symbol.rename change)
  | [] => rfl
  | row :: rows => by
      have alike : (row.rename change).name = (symbol.rename change).name ↔
          row.name = symbol.name := injective.eq_iff
      rw [List.map_cons, put, put]
      by_cases same : row.name = symbol.name
      · rw [if_pos same, if_pos (alike.2 same), List.map_cons]
      · rw [if_neg same, if_neg fun equal => same (alike.1 equal), List.map_cons,
          put_rename symbol rows]

theorem set_rename (table : SymbolTable) (name : Text) (type : CType) (storage : Storage) :
    (table.rename change).set (change name) type (storage.rename change) =
      (table.set name type storage).rename change :=
  congrArg SymbolTable.mk (put_rename injective ⟨name, type, storage⟩ table.symbols)

theorem isStatic_rename (table : SymbolTable) (name : Text) :
    (table.rename change).isStatic (change name) = table.isStatic name := by
  rw [isStatic, isStatic, find?_rename injective]
  rcases table.find? name with _ | ⟨_, _, _ | _ | _ | _⟩ <;> rfl

end SymbolTable

/-! ### Runs with changed names -/

theorem Text.isPlain_string : Text.IsPlain "string" := by
  unfold IsPlain
  decide

theorem Text.isPlain_tmp : Text.IsPlain "tmp" := by
  unfold IsPlain
  decide

/-- A change of internal names, for passes that draw numbers. -/
structure NameChange where
  /-- What becomes of an internal name. -/
  internal : Text → Text
  /-- Where the numbers start that are drawn. -/
  low : Nat
  /-- Which numbers belong to objects of the source. -/
  owns : Nat → Prop

/-- Identifiers are permuted, and the internal names made from them change along. -/
structure NameChange.Carries (names : NameChange) (change : Text → Text) : Prop where
  /-- Identifiers are permuted. -/
  permutes : Text.Permutes change
  /-- A name with linkage is an identifier. -/
  plain : ∀ name : Text, name.IsPlain → names.internal name = change name
  /-- The name of another object of the source is made from an identifier. -/
  numbered : ∀ (base : Text) (number : Nat), base.IsPlain → names.owns number →
    names.internal (Text.numbered base number) = Text.numbered (change base) number

/-- Names are permuted, and those stay that have numbers that are drawn from now on. -/
structure NameChange.Spares (names : NameChange) : Prop where
  /-- Different names stay different. -/
  injective : Function.Injective names.internal
  /-- A parameter without a name gets none. -/
  empty : names.internal [] = []
  /-- A name that is drawn stays. -/
  later : ∀ (base : Text) (number : Nat), base.IsPlain → names.low ≤ number →
    names.internal (Text.numbered base number) = Text.numbered base number
  /-- Nothing is left open about the numbers of objects. -/
  owns : ∀ number, names.owns number

/-- A pass does with changed names what another one does: it draws the same numbers and adapts the
result and the symbols, or fails alike. -/
def Pass.Mirrored {α β : Type} (names : NameChange) (action : Pass α) (renamed : Pass β)
    (adapt : α → β) : Prop :=
  ∀ context : Context, names.low ≤ context.nextName →
    match action.run context with
    | .ok (result, after) =>
        context.nextName ≤ after.nextName ∧
          ((∀ number < after.nextName, names.owns number) →
            renamed.run (context.rename names.internal) =
              .ok (adapt result, after.rename names.internal))
    | .error failure =>
        (∀ number, names.owns number) →
          ∃ other, renamed.run (context.rename names.internal) = .error other ∧
            other.Resembles failure

variable {names : NameChange}

namespace Pass.Mirrored

section

variable {α β γ δ : Type} {action : Pass α} {renamed : Pass β} {adapt : α → β} {next : α → Pass γ}
  {renamedNext : β → Pass δ} {finish : γ → δ}

theorem pure {result : α} {other : β} (same : other = adapt result) :
    Mirrored names (Pure.pure result) (Pure.pure other) adapt :=
  fun _ _ => ⟨Nat.le_refl _, fun _ => same ▸ rfl⟩

theorem throw {failure other : Failure} (alike : other.Resembles failure) :
    Mirrored names (MonadExcept.throw failure : Pass α) (MonadExcept.throw other) adapt :=
  fun _ _ _ => ⟨other, rfl, alike⟩

theorem nameError {span : Span} {error other : NameError} (same : other.code = error.code) :
    Mirrored names (Pass.nameError span error) (Pass.nameError span other) adapt :=
  throw ⟨rfl, same, rfl⟩

/-- What comes behind an error does not matter. -/
theorem nameError_bind {span : Span} {error other : NameError} (same : other.code = error.code) :
    Mirrored names (Pass.nameError span error >>= next) (Pass.nameError span other >>= renamedNext)
      finish :=
  fun _ _ _ => ⟨.user span (.name other), rfl, rfl, same, rfl⟩

theorem typeError {span : Span} {error other : TypeError} :
    Mirrored names (Pass.typeError span error) (Pass.typeError span other) adapt :=
  throw ⟨rfl, rfl, rfl⟩

/-- What comes behind an error does not matter. -/
theorem typeError_bind {span : Span} {error other : TypeError} :
    Mirrored names (Pass.typeError span error >>= next) (Pass.typeError span other >>= renamedNext)
      finish :=
  fun _ _ _ => ⟨.user span (.type other), rfl, rfl, rfl, rfl⟩

theorem bind (first : Mirrored names action renamed adapt)
    (rest : ∀ result, Mirrored names (next result) (renamedNext (adapt result)) finish) :
    Mirrored names (action >>= next) (renamed >>= renamedNext) finish := by
  intro context low
  have begins := first context low
  rw [StateT.run_bind, StateT.run_bind]
  cases runs : action.run context with
  | error failure =>
      rw [runs] at begins
      intro all
      rcases begins all with ⟨other, fails, alike⟩
      rw [fails]
      exact ⟨other, rfl, alike⟩
  | ok made =>
      rcases made with ⟨result, middle⟩
      rw [runs] at begins
      have continues := rest result middle (Nat.le_trans low begins.1)
      change match (next result).run middle with
        | .ok (result, after) => _
        | .error failure => _
      cases ends : (next result).run middle with
      | error failure =>
          rw [ends] at continues
          intro all
          rw [begins.2 fun number _ => all number]
          exact continues all
      | ok made =>
          rcases made with ⟨last, after⟩
          rw [ends] at continues
          refine ⟨Nat.le_trans begins.1 continues.1, fun owned => ?_⟩
          rw [begins.2 fun number below => owned number (Nat.lt_of_lt_of_le below continues.1)]
          exact continues.2 owned

theorem ite_iff {condition other : Prop} [Decidable condition] [Decidable other]
    (same : other ↔ condition) {whenTrue whenFalse : Pass α} {renamedTrue renamedFalse : Pass β}
    (isTrue : condition → Mirrored names whenTrue renamedTrue adapt)
    (isFalse : ¬condition → Mirrored names whenFalse renamedFalse adapt) :
    Mirrored names (if condition then whenTrue else whenFalse)
      (if other then renamedTrue else renamedFalse) adapt := by
  by_cases holds : condition
  · rw [if_pos holds, if_pos (same.2 holds)]
    exact isTrue holds
  · rw [if_neg holds, if_neg fun wrong => holds (same.1 wrong)]
    exact isFalse holds

theorem ite {condition : Prop} [Decidable condition] {whenTrue whenFalse : Pass α}
    {renamedTrue renamedFalse : Pass β} (isTrue : Mirrored names whenTrue renamedTrue adapt)
    (isFalse : Mirrored names whenFalse renamedFalse adapt) :
    Mirrored names (if condition then whenTrue else whenFalse)
      (if condition then renamedTrue else renamedFalse) adapt :=
  ite_iff Iff.rfl (fun _ => isTrue) fun _ => isFalse

theorem times (mirrored : Mirrored names action renamed adapt) (count : Nat) :
    Mirrored names (action.times count) (renamed.times count) (List.map adapt) := by
  induction count with
  | zero => exact pure rfl
  | succ count ih => exact mirrored.bind fun _ => ih.bind fun _ => pure rfl

end

/-! Primitives that have nothing to do with names. -/

theorem get : Mirrored names (MonadState.get : Pass Context) MonadState.get
    (Context.rename names.internal) :=
  fun _ _ => ⟨Nat.le_refl _, fun _ => rfl⟩

theorem newLoc (span : Span) : Mirrored names (Pass.newLoc span) (Pass.newLoc span) id :=
  fun _ _ => ⟨Nat.le_refl _, fun _ => rfl⟩

theorem newLabel (stem : Text) : Mirrored names (Pass.newLabel stem) (Pass.newLabel stem) id :=
  fun _ _ => ⟨Nat.le_succ _, fun _ => rfl⟩

theorem newLabelPair (first second : Text) :
    Mirrored names (Pass.newLabelPair first second) (Pass.newLabelPair first second) id :=
  fun _ _ => ⟨Nat.le_succ _, fun _ => rfl⟩

end Pass.Mirrored

open Pass (Mirrored)

/-! ### Names of objects of the source -/

namespace NameChange.Carries

variable {change : Text → Text} (carries : names.Carries change)

include carries

theorem empty : names.internal [] = [] :=
  (carries.plain [] List.not_mem_nil).trans carries.permutes.empty

theorem uniqueName_mirrored {base : Text} (isPlain : base.IsPlain) :
    Mirrored names (Pass.uniqueName base) (Pass.uniqueName (change base)) names.internal := by
  intro context _
  refine ⟨Nat.le_succ _, fun owned => ?_⟩
  have named := carries.numbered base context.nextName isPlain
    (owned context.nextName (Nat.lt_succ_self _))
  rw [Text.numbered, Text.numbered] at named
  rw [Pass.run_uniqueName, named]
  rfl

end NameChange.Carries

/-! ### Symbols, temporaries and strings -/

namespace NameChange.Spares

variable (spares : names.Spares)

include spares

theorem findSymbol?_mirrored (name : Text) :
    Mirrored names (Pass.findSymbol? name) (Pass.findSymbol? (names.internal name))
      (Option.map (Symbol.rename names.internal)) := by
  intro context _
  refine ⟨Nat.le_refl _, fun _ => ?_⟩
  rw [Pass.run_findSymbol?]
  exact congrArg (fun found => Except.ok (found, _))
    (SymbolTable.find?_rename spares.injective context.symbols name)

theorem setSymbol_mirrored (name : Text) (type : CType) (storage : Storage) :
    Mirrored names (Pass.setSymbol name type storage)
      (Pass.setSymbol (names.internal name) type (storage.rename names.internal)) id := by
  intro context _
  refine ⟨Nat.le_refl _, fun _ => ?_⟩
  rw [Pass.run_setSymbol]
  exact congrArg (fun symbols => Except.ok ((), { context with symbols }))
    (SymbolTable.set_rename spares.injective context.symbols name type storage)

theorem uniqueName_mirrored {base : Text} (isPlain : base.IsPlain) :
    Mirrored names (Pass.uniqueName base) (Pass.uniqueName base) names.internal := by
  intro context low
  refine ⟨Nat.le_succ _, fun _ => ?_⟩
  have stays := spares.later base context.nextName isPlain low
  rw [Text.numbered] at stays
  rw [Pass.run_uniqueName, stays]
  rfl

/-- A string has a name that no object of the source has. -/
theorem newString_mirrored (bytes : Text) :
    Mirrored names (Pass.newString bytes) (Pass.newString bytes) names.internal :=
  (uniqueName_mirrored spares Text.isPlain_string).bind fun name =>
    (setSymbol_mirrored spares name _ (.constant (.string bytes true))).bind fun _ => .pure rfl

end NameChange.Spares

end SubsetC
