import SubsetC.Proofs.AddedNodes
import SubsetC.Proofs.BoundLabels

/-!
# Jumps and the statements around them

Labelling carries the innermost targets along as it walks down a tree. This file says instead where
every statement stands: in which loops and switches of its function, from the inside out
(`Program.sites`). Labelling succeeds exactly if each statement may stand where it does, and then
each jump has the label of the loop or switch that it belongs to, and each switch lists its cases.
The main statement is `Program.label_iff_isLegal`.
-/

namespace SubsetC

/-! ### Places of statements -/

/-- A loop or switch around a statement. -/
structure Construct where
  /-- A continue may belong to it. -/
  isLoop : Bool
  label : Option Text

/-- A statement where it stands in a function. -/
structure Site where
  /-- The loops and switches of the function around it, from the inside out. -/
  around : List Construct
  stmt : Stmt

mutual

/-- The sites of a statement and of those in it, in source order. -/
def Stmt.sites (around : List Construct) : Stmt → List Site
  | stmt@(.ifThen _ _ body) | stmt@(.case _ _ _ body) | stmt@(.default _ _ body) =>
      ⟨around, stmt⟩ :: body.sites around
  | stmt@(.ifElse _ _ thenBranch elseBranch) =>
      ⟨around, stmt⟩ :: (thenBranch.sites around ++ elseBranch.sites around)
  | stmt@(.block _ items) => ⟨around, stmt⟩ :: Item.sitesList around items
  | stmt@(.whileLoop _ label _ body) | stmt@(.doWhile _ label body _)
  | stmt@(.forLoop _ label _ _ _ body) => ⟨around, stmt⟩ :: body.sites (⟨true, label⟩ :: around)
  | stmt@(.switch _ label _ body _) => ⟨around, stmt⟩ :: body.sites (⟨false, label⟩ :: around)
  | stmt@(.ret _ _) | stmt@(.expr _ _) | stmt@(.break _ _) | stmt@(.continue _ _)
  | stmt@(.null _) => [⟨around, stmt⟩]

/-- The sites of the statements in a declaration. A function is left by no jump. -/
def Decl.sites : Decl → List Site
  | .definition _ _ body => Item.sitesList [] body
  | .object _ | .function _ => []

def Item.sitesList (around : List Construct) : List Item → List Site
  | [] => []
  | .stmt stmt :: items => stmt.sites around ++ Item.sitesList around items
  | .decl decl :: items => decl.sites ++ Item.sitesList around items

end

/-- The sites of the statements in a compilation unit, in source order. -/
def Program.sites (program : Program) : List Site := program.flatMap Decl.sites

namespace Site

/-- A statement may stand where it does: jumps and cases have a loop or switch that they belong to,
the values of cases are constant, and a switch has one default of its own at most. -/
def IsLegal (site : Site) : Prop :=
  match site.stmt with
  | .break _ _ => site.around ≠ []
  | .continue _ _ => ∃ construct ∈ site.around, construct.isLoop
  | .case _ _ value _ =>
      (∃ construct ∈ site.around, construct.isLoop = false) ∧ value.fold?.isSome
  | .default _ _ _ => ∃ construct ∈ site.around, construct.isLoop = false
  | .switch _ _ _ body _ => body.caseNodes.countP CaseNode.isDefault ≤ 1
  | _ => True

/-- A statement has its labels: a jump has that of the innermost loop or switch that it belongs to,
and a switch lists its own cases in order, each with its label, which are all different. -/
def IsBound (site : Site) : Prop :=
  match site.stmt with
  | .break _ label => label.isSome ∧ ∃ inner ∈ site.around.head?, label = inner.label
  | .continue _ label =>
      label.isSome ∧ ∃ loop ∈ site.around.find? Construct.isLoop, label = loop.label
  | .switch _ label _ body cases =>
      label.isSome ∧ List.Forall₂ SwitchCase.Folds cases body.caseNodes ∧
        (cases.map SwitchCase.label).Nodup
  | .whileLoop _ label _ _ | .doWhile _ label _ _ | .forLoop _ label _ _ _ _ | .case _ label _ _
  | .default _ label _ => label.isSome
  | _ => True

/-- The label of the statement, if it is a loop or switch. -/
def constructLabel? (site : Site) : Option Text :=
  match site.stmt with
  | .whileLoop _ label _ _ | .doWhile _ label _ _ | .forLoop _ label _ _ _ _
  | .switch _ label _ _ _ => label
  | _ => none

/-- The label of the statement, if it is a case or default. -/
def caseLabel? (site : Site) : Option Text :=
  match site.stmt with
  | .case _ label _ _ | .default _ label _ => label
  | _ => none

/-- The label behind a loop or switch, or that of a case. -/
def mark? (site : Site) : Option Text :=
  (site.constructLabel?.map fun label => Targets.breakLabelOf (some label)).or site.caseLabel?

/-- The labels of the statements at several sites. -/
def marks (sites : List Site) : List Text := sites.filterMap mark?

theorem marks_append (first second : List Site) :
    marks (first ++ second) = marks first ++ marks second := List.filterMap_append

theorem marks_of_some {site : Site} {label : Text} (isMark : site.mark? = some label)
    (sites : List Site) : marks (site :: sites) = label :: marks sites :=
  List.filterMap_cons_some isMark

theorem marks_of_none {site : Site} (noMark : site.mark? = none) (sites : List Site) :
    marks (site :: sites) = marks sites :=
  List.filterMap_cons_none noMark

/-- Loops and switches have different labels if there are different labels behind them. -/
theorem nodup_constructLabels {sites : List Site} (nodup : (marks sites).Nodup) :
    (sites.filterMap constructLabel?).Nodup := by
  have sublist : ((sites.filterMap constructLabel?).map
      fun label => Targets.breakLabelOf (some label)).Sublist (marks sites) := by
    clear nodup
    induction sites with
    | nil => exact .slnil
    | cons site sites ih =>
        cases isLabel : site.constructLabel? with
        | some label =>
            rw [List.filterMap_cons_some isLabel, marks_of_some (by simp [mark?, isLabel]; rfl)]
            exact ih.cons_cons _
        | none =>
            rw [List.filterMap_cons_none isLabel]
            exact ih.trans ((List.sublist_cons_self site sites).filterMap _)
  exact (nodup.sublist sublist).of_map _

theorem nodup_caseLabels {sites : List Site} (nodup : (marks sites).Nodup) :
    (sites.filterMap caseLabel?).Nodup := by
  refine nodup.sublist ?_
  clear nodup
  induction sites with
  | nil => exact .slnil
  | cons site sites ih =>
      cases isLabel : site.caseLabel? with
      | some label =>
          have notConstruct : site.constructLabel? = none := by
            unfold caseLabel? at isLabel
            unfold constructLabel?
            split <;> simp_all
          rw [List.filterMap_cons_some isLabel,
            marks_of_some (by rw [mark?, notConstruct, isLabel]; rfl)]
          exact ih.cons_cons _
      | none =>
          rw [List.filterMap_cons_none isLabel]
          exact ih.trans ((List.sublist_cons_self site sites).filterMap _)

end Site

/-! ### When labelling succeeds -/

/-- The targets of a place are there if the loops and switches are around it. -/
structure Targets.Reflects (targets : Targets) (around : List Construct) : Prop where
  /-- A break has a target inside any of them. -/
  breaks : targets.breakLabel.isSome ↔ around ≠ []
  /-- A continue has a target inside a loop. -/
  continues : targets.continueLabel.isSome ↔ ∃ construct ∈ around, construct.isLoop
  /-- A case has a target inside a switch. -/
  cases : targets.switchLabel.isSome ↔ ∃ construct ∈ around, construct.isLoop = false

namespace Targets.Reflects

variable {targets : Targets} {around : List Construct} {own : Text} {label : Option Text}

theorem none : Targets.none.Reflects [] := by constructor <;> simp [Targets.none]

theorem inLoop (reflects : targets.Reflects around) :
    (targets.inLoop own).Reflects (⟨true, label⟩ :: around) := by
  constructor <;> simp [Targets.inLoop, reflects.cases]

theorem inSwitch (reflects : targets.Reflects around) :
    (targets.inSwitch own).Reflects (⟨false, label⟩ :: around) := by
  constructor <;> simp [Targets.inSwitch, reflects.continues]

end Targets.Reflects

/-- A part of a tree with the given statements and cases is legal at a place, behind other cases of
the switch around it. -/
structure Targets.Admits (targets : Targets) (before : List SwitchCase) (sites : List Site)
    (nodes : List CaseNode) : Prop where
  /-- Every statement may stand where it does. -/
  legal : ∀ site ∈ sites, site.IsLegal
  /-- A default of the switch around is the only one. -/
  single : targets.switchLabel.isSome → nodes.countP CaseNode.isDefault = 0 ∨
    before.countP SwitchCase.isDefault + nodes.countP CaseNode.isDefault ≤ 1

/-- A part of a tree has been labelled, is legal, and its defaults have been collected. -/
structure Targets.Admitted (targets : Targets) (before : List SwitchCase) (sites : List Site)
    (nodes : List CaseNode) (collected : List SwitchCase) : Prop
    extends targets.Admits before sites nodes where
  /-- All defaults are there. -/
  count : targets.switchLabel.isSome → collected.countP SwitchCase.isDefault =
    before.countP SwitchCase.isDefault + nodes.countP CaseNode.isDefault

/-- Labelling succeeds exactly at legal parts of a tree. -/
def Pass.Decides {α : Type} (action : Pass α) (targets : Targets) (before : List SwitchCase)
    (sites : List Site) (nodes : List CaseNode) (collected : α → List SwitchCase) : Prop :=
  ∀ context, Ensures action context (fun _ => ¬targets.Admits before sites nodes)
    fun made _ => targets.Admitted before sites nodes (collected made)

namespace Pass.Decides

variable {α β : Type} {targets : Targets} {before : List SwitchCase} {sites more : List Site}
  {nodes moreNodes : List CaseNode} {action : Pass α} {next : α → Pass β}
  {collected : α → List SwitchCase} {collected' : β → List SwitchCase}

theorem pure {made : α} (same : collected made = before) :
    (Pure.pure made : Pass α).Decides targets before [] [] collected :=
  fun _ => Ensures.pure ⟨⟨List.forall_mem_nil _, fun _ => .inl rfl⟩, fun _ => by rw [same]; rfl⟩

/-- The cases of the first part stand before those of the second one. -/
theorem bind (first : action.Decides targets before sites nodes collected)
    (rest : ∀ made, (next made).Decides targets (collected made) more moreNodes collected') :
    (action >>= next).Decides targets before (sites ++ more) (nodes ++ moreNodes) collected' := by
  intro context
  refine ((first context).allow fun _ refused admits => refused ⟨?_, fun inside => ?_⟩).bind ?_
  · exact (List.forall_mem_append.1 admits.legal).1
  · have := admits.single inside
    rw [List.countP_append] at this
    omega
  rintro made between ⟨⟨legal, single⟩, count⟩
  refine ((rest made between).allow fun _ refused admits => refused ⟨?_, fun inside => ?_⟩).mono ?_
  · exact (List.forall_mem_append.1 admits.legal).2
  · have := admits.single inside
    rw [List.countP_append] at this
    have := count inside
    omega
  rintro made' _ ⟨⟨legal', single'⟩, count'⟩
  refine ⟨⟨List.forall_mem_append.2 ⟨legal, legal'⟩, fun inside => ?_⟩, fun inside => ?_⟩
  all_goals
    rw [List.countP_append]
    have := single inside
    have := single' inside
    have := count inside
    have := count' inside
    omega

/-- Nothing follows that stands in the tree. -/
theorem map {change : α → β} (decides : action.Decides targets before sites nodes collected)
    (same : ∀ made, collected' (change made) = collected made) :
    (action >>= fun made => Pure.pure (change made)).Decides targets before sites nodes
      collected' := by
  have whole : (action >>= fun made => Pure.pure (change made)).Decides targets before
      (sites ++ []) (nodes ++ []) collected' :=
    decides.bind fun made => pure (same made)
  rwa [List.append_nil, List.append_nil] at whole

/-- A statement around a part may stand anywhere, and is not a case. -/
theorem inside {site : Site} (isLegal : site.IsLegal)
    (decides : action.Decides targets before sites nodes collected) :
    action.Decides targets before (site :: sites) nodes collected :=
  fun context => ((decides context).allow fun _ refused admits =>
    refused ⟨(List.forall_mem_cons.1 admits.legal).2, admits.single⟩).mono fun _ _ admitted =>
      ⟨⟨List.forall_mem_cons.2 ⟨isLegal, admitted.legal⟩, admitted.single⟩, admitted.count⟩

/-- A label is drawn first. -/
theorem newLabel {stem : Text} {next : Text → Pass α}
    (decides : ∀ label, (next label).Decides targets before sites nodes collected) :
    (Pass.newLabel stem >>= next).Decides targets before sites nodes collected :=
  fun _ => Ensures.bind_ok (Pass.run_newLabel _ _) (decides _ _)

/-- A loop is no case, and the cases in its body belong to the switch around it. -/
theorem inLoop {own : Text}
    (decides : action.Decides (targets.inLoop own) before sites nodes collected) :
    action.Decides targets before sites nodes collected :=
  fun context => ((decides context).allow fun _ refused admits =>
    refused ⟨admits.legal, admits.single⟩).mono fun _ _ admitted =>
      ⟨⟨admitted.legal, admitted.single⟩, admitted.count⟩

/-- A jump may stand where it has a target. -/
theorem jump {target : Option Text} {site : Site} {change : Text → α} {failure : Failure}
    (isLegal : target.isSome ↔ site.IsLegal) (same : ∀ label, collected (change label) = before) :
    Pass.Decides (match target with
      | some label => Pure.pure (change label)
      | none => throw failure) targets before [site] [] collected := by
  cases target with
  | some label => exact inside (isLegal.1 rfl) (pure (same label))
  | none =>
      exact fun _ => Ensures.throw fun admits =>
        nomatch isLegal.2 (admits.legal site (List.mem_singleton.2 rfl))

/-- A switch may stand anywhere if it has one default of its own at most. -/
theorem switch {own : Text} {site : Site} {change : α → β}
    (isSwitch : site.IsLegal ↔ nodes.countP CaseNode.isDefault ≤ 1)
    (decides : action.Decides (targets.inSwitch own) [] sites nodes collected)
    (same : ∀ made, collected' (change made) = before) :
    (action >>= fun made => Pure.pure (change made)).Decides targets before (site :: sites) []
      collected' := by
  intro context
  have own : (targets.inSwitch own).Admits [] sites nodes ↔
      targets.Admits before (site :: sites) [] := by
    constructor
    · rintro ⟨legal, single⟩
      refine ⟨List.forall_mem_cons.2 ⟨isSwitch.2 ?_, legal⟩, fun _ => .inl rfl⟩
      have := single rfl
      rw [List.countP_nil] at this
      omega
    · rintro ⟨legal, -⟩
      rw [List.forall_mem_cons, isSwitch] at legal
      refine ⟨legal.2, fun _ => .inr ?_⟩
      rw [List.countP_nil]
      omega
  refine ((decides context).allow fun _ refused admits => refused (own.2 admits)).bind ?_
  intro made _ admitted
  exact Ensures.pure ⟨own.1 admitted.toAdmits, fun _ => by rw [same]; rfl⟩

end Pass.Decides

section

variable {targets : Targets} {around : List Construct} {before : List SwitchCase}

theorem SwitchCase.ofValue_decides (reflects : targets.Reflects around) (loc : Loc)
    (label : Option Text) (value : Expr) (body : Stmt) :
    (ofValue targets loc value before).Decides targets before
      [⟨around, .case loc label value body⟩] [⟨some value, label.getD []⟩]
      fun case => before ++ [case] := by
  intro context
  unfold ofValue
  split
  · rename_i noSwitch
    refine Ensures.throw fun admits => ?_
    have inSwitch := reflects.cases.2 (admits.legal _ (List.mem_singleton.2 rfl)).1
    rw [noSwitch] at inSwitch
    cases inSwitch
  · rename_i switch isSwitch
    split
    · rename_i notConstant
      refine Ensures.throw fun admits => ?_
      have folds := (admits.legal _ (List.mem_singleton.2 rfl)).2
      rw [notConstant] at folds
      cases folds
    · rename_i constant folds
      refine Ensures.pure ⟨⟨?_, fun _ => .inl rfl⟩, fun _ => ?_⟩
      · refine List.forall_mem_singleton.2 ⟨reflects.cases.1 (by rw [isSwitch]; rfl), ?_⟩
        rw [folds]
        rfl
      · rw [List.countP_append]
        rfl

theorem SwitchCase.ofDefault_decides (reflects : targets.Reflects around) (loc : Loc)
    (label : Option Text) (body : Stmt) :
    (ofDefault targets loc before).Decides targets before [⟨around, .default loc label body⟩]
      [⟨none, label.getD []⟩] fun case => before ++ [case] := by
  intro context
  unfold ofDefault
  split
  · rename_i noSwitch
    refine Ensures.throw fun admits => ?_
    have inSwitch := reflects.cases.2 (admits.legal _ (List.mem_singleton.2 rfl))
    rw [noSwitch] at inSwitch
    cases inSwitch
  · rename_i switch isSwitch
    have isInside : targets.switchLabel.isSome := by rw [isSwitch]; rfl
    have one : List.countP CaseNode.isDefault [⟨none, label.getD []⟩] = 1 := rfl
    refine Ensures.ite (fun isSecond => Ensures.throw fun admits => ?_) fun isFirst =>
      Ensures.pure ⟨⟨?_, fun _ => ?_⟩, fun _ => ?_⟩
    · have single := admits.single isInside
      have isThere : 0 < before.countP isDefault := by
        rw [List.countP_pos_iff]
        exact List.any_eq_true.1 isSecond
      omega
    · exact List.forall_mem_singleton.2 (reflects.cases.1 isInside)
    · have none : before.countP isDefault = 0 := by
        rw [List.countP_eq_zero]
        simpa using isFirst
      omega
    · rw [List.countP_append]
      rfl

end

mutual

/-- Labelling a statement succeeds exactly if all statements in it may stand where they do. -/
theorem Stmt.label_decides : ∀ (stmt : Stmt) {targets : Targets} {around : List Construct}
    {before : List SwitchCase}, targets.Reflects around →
      (stmt.label targets before).Decides targets before (stmt.sites around) stmt.caseNodes
        Prod.snd
  | .ifThen _ _ body, _, _, _, reflects =>
      .inside trivial ((Stmt.label_decides body reflects).map fun _ => rfl)
  | .ifElse _ _ thenBranch elseBranch, _, _, _, reflects =>
      .inside trivial ((Stmt.label_decides thenBranch reflects).bind fun _ =>
        (Stmt.label_decides elseBranch reflects).map fun _ => rfl)
  | .block _ items, _, _, _, reflects =>
      .inside trivial ((Item.labelList_decides items reflects).map fun _ => rfl)
  | .whileLoop _ _ _ body, _, _, _, reflects | .doWhile _ _ body _, _, _, _, reflects
  | .forLoop _ _ _ _ _ body, _, _, _, reflects =>
      .inside trivial (.newLabel fun _ =>
        (Stmt.label_decides body reflects.inLoop).inLoop.map fun _ => rfl)
  | .switch _ _ _ body _, _, _, _, reflects =>
      .newLabel fun _ => .switch Iff.rfl (Stmt.label_decides body reflects.inSwitch) fun _ => rfl
  | .case loc label value body, _, _, _, reflects =>
      (SwitchCase.ofValue_decides reflects loc label value body).bind fun _ =>
        (Stmt.label_decides body reflects).map fun _ => rfl
  | .default loc label body, _, _, _, reflects =>
      (SwitchCase.ofDefault_decides reflects loc label body).bind fun _ =>
        (Stmt.label_decides body reflects).map fun _ => rfl
  | .break _ _, _, _, _, reflects => .jump reflects.breaks fun _ => rfl
  | .continue _ _, _, _, _, reflects => .jump reflects.continues fun _ => rfl
  | .ret _ _, _, _, _, _ | .expr _ _, _, _, _, _ | .null _, _, _, _, _ =>
      .inside trivial (.pure rfl)

theorem Decl.label_decides : ∀ (decl : Decl) (targets : Targets) (before : List SwitchCase),
    decl.label.Decides targets before decl.sites [] fun _ => before
  | .object _, _, _ | .function _, _, _ => .pure rfl
  | .definition _ _ body, targets, before => by
      intro context
      -- Outside switches the number of defaults does not matter.
      refine (((Item.labelList_decides body .none) context).allow fun _ refused admits =>
        refused ⟨admits.legal, nofun⟩).bind fun _ _ admitted => ?_
      exact Ensures.pure ⟨⟨admitted.legal, fun _ => .inl rfl⟩, fun _ => rfl⟩

theorem Item.labelList_decides : ∀ (items : List Item) {targets : Targets}
    {around : List Construct} {before : List SwitchCase}, targets.Reflects around →
      (Item.labelList targets before items).Decides targets before (Item.sitesList around items)
        (Item.caseNodesList items) Prod.snd
  | [], _, _, _, _ => .pure rfl
  | .stmt stmt :: items, _, _, _, reflects =>
      (Stmt.label_decides stmt reflects).bind fun _ =>
        (Item.labelList_decides items reflects).map fun _ => rfl
  | .decl decl :: items, targets, _, before, reflects =>
      (Decl.label_decides decl targets before).bind fun _ =>
        (Item.labelList_decides items reflects).map fun _ => rfl

end

/-- Labelling a compilation unit succeeds exactly if all statements may stand where they do. -/
theorem Program.label_decides : ∀ (program : Program) (context : Context),
    Ensures program.label context (fun _ => ¬∀ site ∈ program.sites, site.IsLegal)
      fun _ _ => ∀ site ∈ program.sites, site.IsLegal
  | [], _ => Ensures.pure (List.forall_mem_nil _)
  | decl :: decls, context => by
      have sites : Program.sites (decl :: decls) = decl.sites ++ Program.sites decls := rfl
      rw [label, List.mapM_cons, sites, List.forall_mem_append]
      refine ((Decl.label_decides decl .none [] context).allow fun _ refused all =>
        refused ⟨all.1, nofun⟩).bind fun _ between admitted => ?_
      refine ((label_decides decls between).allow fun _ refused all => refused all.2).bind
        fun _ _ rest => ?_
      exact Ensures.pure ⟨admitted.legal, rest⟩

/-! ### What labelling binds -/

/-- The targets of a place are those of the loops and switches around it. -/
structure Targets.Names (targets : Targets) (around : List Construct) : Prop where
  /-- A break leaves the innermost of them. -/
  breaks : targets.breakLabel = around.head?.bind Construct.label
  /-- A continue belongs to the innermost loop. -/
  continues : targets.continueLabel = (around.find? Construct.isLoop).bind Construct.label

namespace Targets.Names

variable {targets : Targets} {around : List Construct} {own : Text}

theorem none : Targets.none.Names [] := ⟨rfl, rfl⟩

theorem inLoop : (targets.inLoop own).Names (⟨true, some own⟩ :: around) := ⟨rfl, rfl⟩

theorem inSwitch (names : targets.Names around) :
    (targets.inSwitch own).Names (⟨false, some own⟩ :: around) := ⟨rfl, names.continues⟩

end Targets.Names

/-- Labelling has passed a part of a tree, and each statement at the sites has its labels. -/
structure Context.Binds (targets : Targets) (before : List SwitchCase) (sites : List Site)
    (nodes : List CaseNode) (context : Context) (collected : List SwitchCase) (after : Context) :
    Prop where
  /-- Jumps have the labels of their targets, and switches list their cases. -/
  bound : ∀ site ∈ sites, site.IsBound
  /-- The labels are those of the cases and those drawn on the way. -/
  collects : context.Collects targets before (Site.marks sites) nodes collected after

namespace Context.Binds

variable {targets : Targets} {before middle collected : List SwitchCase}
  {sites more : List Site} {nodes moreNodes : List CaseNode} {first second third : Context}

theorem nil (context : Context) : context.Binds targets before [] [] before context :=
  ⟨List.forall_mem_nil _, .nil context⟩

theorem append (earlier : first.Binds targets before sites nodes middle second)
    (later : second.Binds targets middle more moreNodes collected third) :
    first.Binds targets before (sites ++ more) (nodes ++ moreNodes) collected third :=
  ⟨List.forall_mem_append.2 ⟨earlier.bound, later.bound⟩,
    Site.marks_append sites more ▸ earlier.collects.append later.collects⟩

/-- A statement without a label is put around a part. -/
theorem inside {site : Site} (isBound : site.IsBound) (noMark : site.mark? = none)
    (binds : first.Binds targets before sites nodes collected second) :
    first.Binds targets before (site :: sites) nodes collected second :=
  ⟨List.forall_mem_cons.2 ⟨isBound, binds.bound⟩,
    Site.marks_of_none noMark sites ▸ binds.collects⟩

/-- A loop draws its label before its body is labelled. -/
theorem loop {site : Site} (isBound : site.IsBound)
    (isMark : site.mark? = some (Targets.breakLabelOf (some (labelText "loop" first.nextName))))
    (binds : Binds (targets.inLoop (labelText "loop" first.nextName)) before sites nodes
      { first with nextName := first.nextName + 1 } collected second) :
    first.Binds targets before (site :: sites) nodes collected second := by
  refine ⟨List.forall_mem_cons.2 ⟨isBound, binds.bound⟩, ?_⟩
  have isStem : ∀ stem ∈ (["break_loop"] : List Text), stem.IsStem :=
    List.forall_mem_singleton.2 (Text.isStem_of_getLast? rfl (by decide))
  rw [Site.marks_of_some isMark]
  exact binds.collects.loop (List.nodup_singleton _) isStem

/-- A switch lists the cases of its body. -/
theorem switch {around : List Construct} {loc : Loc} {value : Expr} {body : Stmt}
    (binds : Binds (targets.inSwitch (labelText "loop" first.nextName)) []
      (body.sites (⟨false, some (labelText "loop" first.nextName)⟩ :: around)) body.caseNodes
      { first with nextName := first.nextName + 1 } collected second) :
    first.Binds targets before
      ((Stmt.switch loc (some (labelText "loop" first.nextName)) value body collected).sites
        around) [] before second := by
  have numbered := binds.collects.numbered _ rfl .nil
  rcases binds.collects.adds with ⟨_, _, rfl, folds, _⟩
  exact ⟨List.forall_mem_cons.2 ⟨⟨rfl, folds, numbered.nodup⟩, binds.bound⟩,
    binds.collects.switch⟩

/-- A case comes before those of the statement that it marks. -/
theorem case {site : Site} {case : SwitchCase} {node : CaseNode} {switch : Text}
    (isBound : site.IsBound) (isMark : site.mark? = some case.label) (folds : case.Folds node)
    (isSwitch : targets.switchLabel = some switch)
    (numbered : SwitchCase.Numbered switch before → SwitchCase.Numbered switch (before ++ [case]))
    (binds : first.Binds targets (before ++ [case]) sites nodes collected second) :
    first.Binds targets before (site :: sites) (node :: nodes) collected second :=
  ⟨List.forall_mem_cons.2 ⟨isBound, binds.bound⟩,
    Site.marks_of_some isMark sites ▸ binds.collects.case folds isSwitch numbered⟩

end Context.Binds

mutual

/-- Labelling gives each statement in a statement its labels. -/
theorem Stmt.label_sites : ∀ (stmt : Stmt) {targets : Targets} {around : List Construct}
    {before : List SwitchCase} {context : Context}, targets.Names around →
      Yields (stmt.label targets before) context fun made =>
        context.Binds targets before (made.1.sites around) made.1.caseNodes made.2
  | .ifThen _ _ body, _, _, _, _, names =>
      (Stmt.label_sites body names).bind fun _ _ binds =>
        Ensures.pure (binds.inside trivial rfl)
  | .ifElse _ _ thenBranch elseBranch, _, _, _, _, names =>
      (Stmt.label_sites thenBranch names).bind fun _ _ thenBinds =>
        (Stmt.label_sites elseBranch names).bind fun _ _ elseBinds =>
          Ensures.pure ((thenBinds.append elseBinds).inside trivial rfl)
  | .block _ items, _, _, _, _, names =>
      (Item.labelList_sites items names).bind fun _ _ binds =>
        Ensures.pure (binds.inside trivial rfl)
  | .whileLoop _ _ _ body, _, _, _, _, _ | .doWhile _ _ body _, _, _, _, _, _
  | .forLoop _ _ _ _ _ body, _, _, _, _, _ =>
      Ensures.bind_ok (Pass.run_newLabel _ _) ((Stmt.label_sites body .inLoop).bind fun _ _ binds =>
        Ensures.pure (binds.loop rfl rfl))
  | .switch _ _ _ body _, _, _, _, _, names =>
      Ensures.bind_ok (Pass.run_newLabel _ _)
        ((Stmt.label_sites body names.inSwitch).bind fun _ _ binds => Ensures.pure binds.switch)
  | .case _ _ _ body, _, _, _, _, names => by
      refine SwitchCase.ofValue_yields.bind ?_
      rintro case _ ⟨rfl, folds, switch, isSwitch, numbered⟩
      exact (Stmt.label_sites body names).bind fun _ _ binds =>
        Ensures.pure (binds.case rfl rfl folds isSwitch numbered)
  | .default _ _ body, _, _, _, _, names => by
      refine SwitchCase.ofDefault_yields.bind ?_
      rintro case _ ⟨rfl, folds, switch, isSwitch, numbered⟩
      exact (Stmt.label_sites body names).bind fun _ _ binds =>
        Ensures.pure (binds.case rfl rfl folds isSwitch numbered)
  | .break _ _, _, _, _, context, names => by
      unfold Stmt.label
      split
      · rename_i label isTarget
        rcases Option.bind_eq_some_iff.1 (names.breaks.symm.trans isTarget) with
          ⟨inner, isInner, isLabel⟩
        exact Ensures.pure ((Context.Binds.nil context).inside
          ⟨rfl, inner, isInner, isLabel.symm⟩ rfl)
      · exact Ensures.throw trivial
  | .continue _ _, _, _, _, context, names => by
      unfold Stmt.label
      split
      · rename_i label isTarget
        rcases Option.bind_eq_some_iff.1 (names.continues.symm.trans isTarget) with
          ⟨loop, isLoop, isLabel⟩
        exact Ensures.pure ((Context.Binds.nil context).inside
          ⟨rfl, loop, isLoop, isLabel.symm⟩ rfl)
      · exact Ensures.throw trivial
  | .ret _ _, _, _, _, context, _ | .expr _ _, _, _, _, context, _
  | .null _, _, _, _, context, _ =>
      Ensures.pure ((Context.Binds.nil context).inside trivial rfl)

theorem Decl.label_sites : ∀ (decl : Decl) {context : Context},
    Yields decl.label context fun decl' after =>
      (∀ site ∈ decl'.sites, site.IsBound) ∧
        Text.Marked context.nextName after.nextName (Site.marks decl'.sites)
  | .object _, _ | .function _, _ =>
      Ensures.pure ⟨List.forall_mem_nil _, .nil (Nat.le_refl _)⟩
  | .definition _ _ body, _ => by
      refine (Item.labelList_sites body .none).bind fun made _ binds => Ensures.pure ?_
      rcases binds.collects.adds with ⟨own, drawn, isOwn, _, marked, count⟩
      obtain rfl : own = [] := isOwn.symm.trans (binds.collects.outside rfl)
      exact ⟨binds.bound, marked.of_count (by simpa [Decl.sites] using count)⟩

theorem Item.labelList_sites : ∀ (items : List Item) {targets : Targets}
    {around : List Construct} {before : List SwitchCase} {context : Context},
      targets.Names around → Yields (Item.labelList targets before items) context fun made =>
        context.Binds targets before (Item.sitesList around made.1) (Item.caseNodesList made.1)
          made.2
  | [], _, _, _, context, _ => Ensures.pure (.nil context)
  | .stmt stmt :: items, _, _, _, _, names =>
      (Stmt.label_sites stmt names).bind fun _ _ binds =>
        (Item.labelList_sites items names).bind fun _ _ rest => Ensures.pure (binds.append rest)
  | .decl decl :: items, targets, _, before, context, names => by
      refine (Decl.label_sites decl).bind ?_
      rintro decl' between ⟨bound, marked⟩
      -- What is drawn in a function that is defined here belongs to no switch around.
      have first : context.Binds targets before decl'.sites [] before between :=
        ⟨bound, ⟨[], _, by simp, .nil, marked, by simp⟩, fun _ _ => id, fun _ => rfl⟩
      exact (Item.labelList_sites items names).bind fun _ _ rest =>
        Ensures.pure (first.append rest)

end

namespace Program

theorem label_sites : ∀ (program : Program) {context : Context},
    Yields program.label context fun labelled after =>
      (∀ site ∈ labelled.sites, site.IsBound) ∧
        Text.Marked context.nextName after.nextName (Site.marks labelled.sites)
  | [], _ => Ensures.pure ⟨List.forall_mem_nil _, .nil (Nat.le_refl _)⟩
  | decl :: decls, _ => by
      rw [label, List.mapM_cons]
      refine (Decl.label_sites decl).bind ?_
      rintro decl' between ⟨bound, marked⟩
      refine (label_sites decls).bind ?_
      rintro decls' after ⟨restBound, restMarked⟩
      have sites : Program.sites (decl' :: decls') = decl'.sites ++ Program.sites decls' := rfl
      refine Ensures.pure ?_
      rw [sites, Site.marks_append]
      exact ⟨List.forall_mem_append.2 ⟨bound, restBound⟩, marked.append restMarked⟩

/-- Labelling succeeds exactly if every statement may stand where it does. Then only labels and
lists of cases have changed, each jump has the label of the loop or switch that it belongs to, each
switch lists its own cases, and no two loops, switches or cases have the same label. -/
theorem label_iff_isLegal (program : Program) (context : Context) :
    ((∃ labelled after, program.label.run context = .ok (labelled, after)) ↔
      ∀ site ∈ program.sites, site.IsLegal) ∧
    ∀ labelled after, program.label.run context = .ok (labelled, after) →
      labelled.mapParts .unlabelled = program.mapParts .unlabelled ∧
        (∀ site ∈ labelled.sites, site.IsBound) ∧
          (labelled.sites.filterMap Site.constructLabel?).Nodup ∧
            (labelled.sites.filterMap Site.caseLabel?).Nodup := by
  have decides := label_decides program context
  refine ⟨⟨?_, fun legal => ?_⟩, fun labelled after runs => ?_⟩
  · rintro ⟨labelled, after, runs⟩
    exact decides.of_ok runs
  · rcases (decides.allow fun _ refused => refused legal).exists_ok with
      ⟨labelled, after, runs, -⟩
    exact ⟨labelled, after, runs⟩
  · have same := ((label_restores program context (Nat.le_refl _)).of_ok runs).2
    rcases (label_sites program).of_ok runs with ⟨bound, marked⟩
    exact ⟨same, bound, Site.nodup_constructLabels marked.nodup, Site.nodup_caseLabels marked.nodup⟩

/-- A switch in a loop, with a break that belongs to the switch and a continue that does not. -/
theorem label_iff_isLegal_nested :
    ∃ program lastId resolved context labelled after,
      parse ("int f(int n) \x7b while (n) switch (n) \x7b case 1: break;" ++
          " default: if (n) continue; \x7d return 0; \x7d") = .ok (program, lastId) ∧
        program.resolve.run (parsedContext lastId) = .ok (resolved, context) ∧
          resolved.label.run context = .ok (labelled, after) ∧
            (∀ site ∈ resolved.sites, site.IsLegal) ∧ ∀ site ∈ labelled.sites, site.IsBound := by
  have succeeds : succeedsWith
      (fun parsed => succeedsWith
        (fun resolved => succeedsWith (fun _ => true) (resolved.1.label.run resolved.2))
        (parsed.1.resolve.run (parsedContext parsed.2)))
      (parse ("int f(int n) \x7b while (n) switch (n) \x7b case 1: break;" ++
        " default: if (n) continue; \x7d return 0; \x7d")) := by
    decide +kernel
  rcases exists_of_succeedsWith succeeds with ⟨⟨program, lastId⟩, parses, resolves⟩
  rcases exists_of_succeedsWith resolves with ⟨⟨resolved, context⟩, runsResolve, labels⟩
  rcases exists_of_succeedsWith labels with ⟨⟨labelled, after⟩, runs, -⟩
  have both := label_iff_isLegal resolved context
  exact ⟨program, lastId, resolved, context, labelled, after, parses, runsResolve, runs,
    both.1.1 ⟨labelled, after, runs⟩, (both.2 labelled after runs).2.1⟩

end Program

end SubsetC
