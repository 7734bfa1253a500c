import SubsetC.Proofs.Naming
import SubsetC.Proofs.Outcome

/-!
# Symbols that lowering adds

Lowering enters temporaries and strings only, and draws a name for each. The name is new, so the row
of the symbol comes behind all other rows, and no row is replaced. `Context.Appends` says so of a
part of lowering.
-/

namespace SubsetC

/-- The storage is that of a temporary or of a string. Automatic objects are stored as temporaries
are. -/
def Storage.isAuxiliary : Storage → Bool
  | .automatic | .constant (.string _ true) => true
  | _ => false

namespace SymbolTable

theorem put_of_absent (symbol : Symbol) {rows : List Symbol}
    (absent : ∀ row ∈ rows, row.name ≠ symbol.name) : put symbol rows = rows ++ [symbol] := by
  induction rows with
  | nil => rfl
  | cons row rows ih =>
      rcases List.forall_mem_cons.1 absent with ⟨differ, absent⟩
      rw [put, if_neg differ, ih absent, List.cons_append]

theorem find?_eq_none_iff {table : SymbolTable} {name : Text} :
    table.find? name = none ↔ ∀ row ∈ table.symbols, row.name ≠ name := by
  simp [find?]

/-- The row of a new name comes last. -/
theorem symbols_set_of_absent {table : SymbolTable} {name : Text} (type : CType) (storage : Storage)
    (absent : table.find? name = none) :
    (table.set name type storage).symbols = table.symbols ++ [⟨name, type, storage⟩] :=
  put_of_absent ⟨name, type, storage⟩ (find?_eq_none_iff.1 absent)

end SymbolTable

/-- Temporaries and strings have been entered, and labels may have been drawn. -/
structure Context.Appends (context after : Context) : Prop where
  le : context.nextName ≤ after.nextName
  /-- New rows come last, and have drawn names. -/
  rows : context.Tidy → ∃ rows, after.symbols.symbols = context.symbols.symbols ++ rows ∧
    Text.Drawn context.nextName after.nextName (rows.map Symbol.name) ∧
    ∀ row ∈ rows, row.storage.isAuxiliary

namespace Context.Appends

variable {context first second third : Context}

theorem of_symbols (same : second.symbols = first.symbols)
    (le : first.nextName ≤ second.nextName) : first.Appends second := by
  refine ⟨le, fun _ => ⟨[], by simp [same], ?_, nofun⟩⟩
  exact (Text.Drawn.nil first.nextName).widen le

theorem refl (context : Context) : context.Appends context := of_symbols rfl (Nat.le_refl _)

/-- A label is drawn. -/
theorem draw (context : Context) :
    context.Appends { context with nextName := context.nextName + 1 } :=
  of_symbols rfl (Nat.le_succ _)

theorem tidy (appends : first.Appends second) (tidy : first.Tidy) : second.Tidy := by
  rcases appends.rows tidy with ⟨rows, same, drawn, _⟩
  intro name present
  have found : (first.symbols.find? name).isSome ∨ ∃ row ∈ rows, row.name = name := by
    simpa [SymbolTable.find?, same, List.find?_append] using present
  rcases found with isOld | ⟨row, isNew, rfl⟩
  · exact (tidy name isOld).imp_right fun isNumbered =>
      isNumbered.widen (Nat.le_refl _) appends.le
  · exact .inr ((drawn.isNumbered _ (List.mem_map_of_mem isNew)).widen (Nat.zero_le _)
      (Nat.le_refl _))

theorem trans (earlier : first.Appends second) (later : second.Appends third) :
    first.Appends third := by
  refine ⟨Nat.le_trans earlier.le later.le, fun tidy => ?_⟩
  rcases earlier.rows tidy with ⟨rows, same, drawn, auxiliary⟩
  rcases later.rows (earlier.tidy tidy) with ⟨more, sameLater, drawnLater, auxiliaryLater⟩
  refine ⟨rows ++ more, ?_, ?_, List.forall_mem_append.2 ⟨auxiliary, auxiliaryLater⟩⟩
  · rw [sameLater, same, List.append_assoc]
  · rw [List.map_append]
    exact drawn.append drawnLater

/-- A temporary or a string is entered under a name drawn for it. -/
theorem enter (base : Text) (type : CType) {storage : Storage}
    (auxiliary : storage.isAuxiliary) :
    context.Appends ⟨context.lastId, context.nextName + 1,
      context.symbols.set (Text.numbered base context.nextName) type storage⟩ := by
  refine ⟨Nat.le_succ _, fun tidy => ⟨[⟨Text.numbered base context.nextName, type, storage⟩], ?_,
    .single base _, ?_⟩⟩
  · exact SymbolTable.symbols_set_of_absent type storage (tidy.find?_fresh base)
  · simpa using auxiliary

end Context.Appends

end SubsetC
