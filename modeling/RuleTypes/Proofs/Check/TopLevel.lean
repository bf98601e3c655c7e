import RuleTypes.Proofs.Check.Definitions
import RuleTypes.Proofs.Check.Soundness

/-!
# Names of the top level

Where an item is looked at, the names of the top level are those of the functions that could be
registered and of the variables in the items before it (`GlobalNames`). Each item adds its own
variables, whether it goes through or not, and types that were found before stay. So in the end
everything below an item without a finding has the type of its rule, with the names of the top level
as they were there (`checked_of_run`).
-/

namespace RuleTypes.Check

open Relation

variable {cx : Setting} {s s' : State} {p p' q : Progress} {item : Item} {items seen : List Item}
  {ids : List NodeId} {table : TypeTable} {position : Nat} {globals : NameMap Binding}

/-! ## Steps on items -/

/-- Final types stay, nothing more fails to be registered, and findings stay. -/
structure Continued (p p' : Progress) : Prop where
  state : Advances p.state p'.state
  failed : p'.failed = p.failed
  findings : p.findings ⊆ p'.findings

theorem continued_of_itemStep (hfinal : ∀ x, p.state.annotations.get? x ≠ some .auto)
    (h : ItemStep cx item p p') : Continued p p' := by
  cases h with
  | skip => exact ⟨(Later.refl (fun _ => True) p.state).advances, rfl, List.Subset.refl _⟩
  | done _ h => exact ⟨((checkItem_forward item).ok h).advances, rfl, List.Subset.refl _⟩
  | found _ h =>
    have hkeeps := keeps_of_attempt_error (checkItem_forward item) (fun x _ => hfinal x) h
    refine ⟨⟨hkeeps.table, hkeeps.names, hkeeps.operators, hkeeps.members, ?_⟩, rfl,
      List.subset_append_left _ _⟩
    exact fun x type htype _ => (hkeeps.annotations x trivial).trans htype

/-- An item can bind its variables outside blocks, loops and functions, and nothing else. -/
theorem checkItem_binds (hnode : cx.arena.node? item.id = some item.node) :
    Goes (Binds fun name _ => ∃ v, cx.arena.IsGlobal item.id v name)
      (Abandons fun name _ => ∃ v, cx.arena.IsGlobal item.id v name) (checkItem cx item) := by
  have hwhole : item.functionDef? = none →
      Goes (Binds fun name _ => ∃ v, cx.arena.IsGlobal item.id v name)
        (Abandons fun name _ => ∃ v, cx.arena.IsGlobal item.id v name) (infer cx item.id) := by
    refine fun hnone => binds_mono (fun name binding hdeclares => ?_) (inferAt_scope _ item.id)
    obtain ⟨v, hexposed, hv⟩ := hdeclares.exists_variable
    refine ⟨v, hexposed, hv, fun own kind hfunction => ?_⟩
    obtain ⟨d, hd, -⟩ := (isFunction_iff hnode).mp hfunction
    cases hnone.symm.trans hd
  unfold Item.functionDef? at hwhole
  unfold checkItem
  cases hkind : item.node.kind with
  | struct | foreign => exact .pure _
  | function => exact .bind (checkFunction_binds _ _ _ _ _ _) fun _ => .pure _
  | var =>
    simp only [hkind] at hwhole
    exact .bind (hwhole trivial) fun _ => .pure _
  | _ =>
    simp only [hkind] at hwhole
    exact .bind (.reads (require_moves _ (.pure _) _)) fun _ =>
      .bind (hwhole trivial) fun _ => .pure _

/-- However an item ends, its variables outside blocks, loops and functions may be bound, and
nothing else. -/
theorem gains_of_itemStep (hframes : p.state.scope.frames = [])
    (hnode : cx.arena.node? item.id = some item.node) (h : ItemStep cx item p p') :
    p.state.scope.globals.Gains (fun name _ => ∃ v, cx.arena.IsGlobal item.id v name)
      p'.state.scope.globals := by
  cases h with
  | skip => exact .refl _ _
  | done _ h => exact Scope.Gains.globals ((checkItem_binds hnode).ok h) hframes
  | found _ h =>
    obtain ⟨s₁, annotations, herror, -, rfl⟩ := attempt_eq_error h
    obtain ⟨mid, opened, hgains, heq⟩ : Scope.Leaves _ _ _ := (checkItem_binds hnode).error herror
    have hmid : s₁.scope.unwind.globals = mid.globals := by rw [heq]; rfl
    dsimp only
    rw [hmid]
    exact hgains.globals hframes

/-! ## Names of the top level -/

/-- What the names of the top level are where the item at a position is looked at. -/
structure GlobalNames (cx : Setting) (ids : List NodeId) (p : Progress) (position : Nat)
    (globals : NameMap Binding) : Prop where
  /-- A name is that of a function, or of a variable in an item before. If that item has no finding,
  the name has the type of the variable. -/
  declared : ∀ name binding, globals.get? name = some binding →
    (∃ f ∈ ids, f ∉ p.failed ∧ cx.arena.IsFunction f name .normal ∧
      HasType p.state f binding.type) ∨
    ∃ i < position, ∃ item v, ids[i]? = some item ∧ cx.arena.IsGlobal item v name ∧
      ((∀ finding, (i, finding) ∉ p.findings) → HasType p.state v binding.type)
  functions : ∀ f ∈ ids, f ∉ p.failed → ∀ name, cx.arena.IsFunction f name .normal →
    ∃ binding, globals.get? name = some binding ∧ HasType p.state f binding.type
  vars : ∀ i < position, (∀ finding, (i, finding) ∉ p.findings) → ∀ item v name,
    ids[i]? = some item → cx.arena.IsGlobal item v name →
    ∃ binding, globals.get? name = some binding ∧ HasType p.state v binding.type

theorem GlobalNames.continued (h : GlobalNames cx ids p position globals)
    (hcontinued : Continued p p') : GlobalNames cx ids p' position globals := by
  have hfindings := fun i (hclean : ∀ finding, (i, finding) ∉ p'.findings) finding hmem =>
    hclean finding (hcontinued.findings hmem)
  refine ⟨fun name binding hget => ?_, fun f hf hnew name hname => ?_,
    fun i hi hclean item v name hitem hv => ?_⟩
  · obtain ⟨f, hf, hnew, hname, htype⟩ | ⟨i, hi, item, v, hitem, hv, htype⟩ :=
      h.declared name binding hget
    · exact .inl ⟨f, hf, hcontinued.failed ▸ hnew, hname, htype.advances hcontinued.state⟩
    · exact .inr ⟨i, hi, item, v, hitem, hv, fun hclean =>
        (htype (hfindings i hclean)).advances hcontinued.state⟩
  · obtain ⟨binding, hget, htype⟩ := h.functions f hf (hcontinued.failed ▸ hnew) name hname
    exact ⟨binding, hget, htype.advances hcontinued.state⟩
  · obtain ⟨binding, hget, htype⟩ := h.vars i hi (hfindings i hclean) item v name hitem hv
    exact ⟨binding, hget, htype.advances hcontinued.state⟩

/-- One more item adds its variables. -/
theorem GlobalNames.step (h : GlobalNames cx ids p position globals) (hcontinued : Continued p p')
    {id : NodeId} (hid : ids[position]? = some id) {globals' : NameMap Binding}
    (hgains : globals.Gains (fun name _ => ∃ v, cx.arena.IsGlobal id v name) globals')
    (hbound : (∀ finding, (position, finding) ∉ p'.findings) → ∀ v name,
      cx.arena.IsGlobal id v name →
        ∃ binding, globals'.get? name = some binding ∧ HasType p'.state v binding.type) :
    GlobalNames cx ids p' (position + 1) globals' := by
  have hp' := h.continued hcontinued
  refine ⟨fun name binding hget => ?_, fun f hf hnew name hname => ?_,
    fun i hi hclean item v name hitem hv => ?_⟩
  · obtain hold | ⟨v, hv⟩ := hgains.new name binding hget
    · refine (hp'.declared name binding hold).imp_right ?_
      rintro ⟨i, hi, hrest⟩
      exact ⟨i, Nat.lt_succ_of_lt hi, hrest⟩
    · refine .inr ⟨position, Nat.lt_succ_self _, id, v, hid, hv, fun hclean => ?_⟩
      obtain ⟨found, hfound, htype⟩ := hbound hclean v name hv
      obtain rfl := Option.some.inj (hget.symm.trans hfound)
      exact htype
  · obtain ⟨binding, hget, htype⟩ := hp'.functions f hf hnew name hname
    exact ⟨binding, hgains.kept name binding hget, htype⟩
  · obtain hi | rfl := Nat.lt_succ_iff_lt_or_eq.mp hi
    · obtain ⟨binding, hget, htype⟩ := hp'.vars i hi hclean item v name hitem hv
      exact ⟨binding, hgains.kept name binding hget, htype⟩
    · obtain rfl := Option.some.inj (hid.symm.trans hitem)
      exact hbound hclean v name hv

/-- What could be registered keeps its type, so names go on standing for it. -/
theorem Dictionary.continued (h : Dictionary cx ids p) (hcontinued : Continued p p') :
    Dictionary cx ids p' := by
  have htypes : ∀ d ∈ ids, d ∉ p.failed → cx.arena.IsDefinition d → ∀ type,
      HasType p'.state d type ↔ HasType p.state d type := by
    intro d hd hnew hdefinition type
    obtain ⟨-, found, -, hfound, -⟩ := h.defines d hd hnew hdefinition
    refine ⟨fun htype => ?_, fun htype => htype.advances hcontinued.state⟩
    have hlater := hfound.advances hcontinued.state
    exact Option.some.inj (htype.1.symm.trans hlater.1) ▸ hfound
  have hstate := hcontinued.state
  refine ⟨fun d hd hnew hdefinition => ?_, fun name type => ?_, fun name kind signature hkind => ?_⟩
  · obtain ⟨node, type, hnode, htype, hdefines⟩ :=
      h.defines d hd (hcontinued.failed ▸ hnew) hdefinition
    exact ⟨node, type, hnode, htype.advances hstate, hdefines.advances hstate⟩
  · rw [hstate.names, h.structs, hcontinued.failed]
    refine exists_congr fun d => and_congr_right fun hd => and_congr_right fun hnew =>
      and_congr_right fun hstruct => ?_
    exact (htypes d hd hnew ⟨name, .inl hstruct⟩ type).symm
  · have hsame : p'.state.signatures name kind = p.state.signatures name kind := by
      cases kind with
      | normal => exact absurd rfl hkind
      | symbolic => simp only [State.signatures, hstate.operators]
      | member => simp only [State.signatures, hstate.members]
    rw [hsame, h.functions name kind signature hkind, hcontinued.failed]
    refine exists_congr fun f => and_congr_right fun hf => and_congr_right fun hnew =>
      and_congr_right fun hfunction => ?_
    exact (htypes f hf hnew ⟨name, .inr ⟨kind, hfunction⟩⟩ signature).symm

/-! ## Runs -/

/-- What holds between the items; `seen` are those that were looked at. -/
structure Checked (cx : Setting) (ids : List NodeId) (seen : List Item) (p : Progress) : Prop where
  frames : p.state.scope.frames = []
  slices : p.state.table.UnarySlices
  dictionary : Dictionary cx ids p
  globals : GlobalNames cx ids p seen.length p.state.scope.globals
  typed : ∀ item ∈ seen, (∀ finding, (item.position, finding) ∉ p.findings) →
    ∃ globals, GlobalNames cx ids p item.position globals ∧ AllTyped cx globals p.state item.id

section Program

variable {program : Program} (htree : program.IsTree) (harena : cx.arena = program.arena)

include htree harena

theorem Checked.step {rest : List Item} (h : Checked cx program.items seen p)
    (hcomplete : Complete cx (seen ++ item :: rest) seen p)
    (hfrom : itemsFrom cx.arena 0 program.items = .ok (seen ++ item :: rest))
    (hstep : ItemStep cx item p p') : Checked cx program.items (seen ++ [item]) p' := by
  have hitems := itemsOf_of_itemsFrom htree (harena ▸ hfrom)
  have hitem : item ∈ seen ++ item :: rest := by simp
  have hnode := node?_of_itemsFrom hfrom hitem
  have hposition : item.position = seen.length := by
    simpa using ((itemsFrom_eq_ok hfrom).2 seen.length item (by simp)).1
  have hid : program.items[seen.length]? = some item.id :=
    hposition ▸ getElem?_of_itemsFrom hfrom hitem
  have hroot : ∀ parent, ¬ cx.arena.IsChild parent item.id := fun _ =>
    harena ▸ htree.not_isChild_of_item (hitems.mem_items hitem)
  have hcontinued := continued_of_itemStep hcomplete.final hstep
  -- an item without a finding went through
  have hthrough : (∀ finding, (item.position, finding) ∉ p'.findings) →
      AllTyped cx p.state.scope.globals p'.state item.id ∧
        ∀ v name, cx.arena.IsGlobal item.id v name →
          ∃ binding, p'.state.scope.globals.get? name = some binding ∧
            HasType p'.state v binding.type := by
    intro hclean
    cases hstep with
    | skip hfailed =>
      obtain ⟨other, hother, heq, finding, hfinding⟩ := hcomplete.failed item.id hfailed
      obtain rfl := hitems.eq_of_id hother hitem heq
      exact absurd hfinding (hclean finding)
    | done hnew hok =>
      refine allTyped_of_checkItem (harena ▸ htree.isForest) hroot ⟨hcomplete.aware, h.slices⟩
        h.frames hnode (fun hregistered => ?_) hok
      obtain ⟨node, type, hnode', htype, hdefines⟩ := h.dictionary.defines item.id
        (List.mem_of_getElem? hid) hnew (hregistered.isDefinition hnode)
      obtain rfl := Option.some.inj (hnode.symm.trans hnode')
      exact ⟨type, htype, hdefines⟩
    | found => exact absurd (List.mem_append_right _ (List.mem_singleton.mpr rfl)) (hclean _)
  refine ⟨frames_of_itemStep h.frames hstep, h.slices.extends hcontinued.state.table,
    h.dictionary.continued hcontinued, ?_, fun other hother hclean => ?_⟩
  · rw [List.length_append, List.length_singleton]
    exact h.globals.step hcontinued hid (gains_of_itemStep h.frames hnode hstep) fun hclean =>
      (hthrough (hposition ▸ hclean)).2
  · obtain hother | hother := List.mem_append.mp hother
    · obtain ⟨globals, hglobals, htyped⟩ := h.typed other hother fun finding hmem =>
        hclean finding (hcontinued.findings hmem)
      exact ⟨globals, hglobals.continued hcontinued, htyped.advances hcontinued.state⟩
    · obtain rfl := List.mem_singleton.mp hother
      exact ⟨_, hposition ▸ h.globals.continued hcontinued, (hthrough hclean).1⟩

/-- **Items without a finding are typed.** -/
theorem checked_of_run (hcanonical : table.Canonical) (hbuiltin : cx.builtin.ClearIn .known table)
    (hslices : table.UnarySlices) (hrun : run cx program.items table = .ok p) :
    ∃ items, itemsFrom cx.arena 0 program.items = .ok items ∧
      Checked cx program.items items p := by
  obtain ⟨items, q, hfrom, hregistered, hcheck⟩ := run_eq_ok.mp hrun
  have hids := htree.nodup_items
  have hnode : ∀ item ∈ items, cx.arena.node? item.id = some item.node := fun _ =>
    node?_of_itemsFrom hfrom
  have hcomplete := complete_of_registered hcanonical hbuiltin hnode hregistered
  have hsteps := registered_steps hregistered
  have hdictionary :=
    dictionary_of_registered hcanonical hids hfrom hregistered hcomplete.final
  have hglobals : GlobalNames cx program.items q 0 q.state.scope.globals := by
    have hlisted := fun name signature => mem_signatures_of_registered hcanonical hids hfrom
      hregistered hcomplete.final name .normal signature
    refine ⟨fun name binding hget => .inl ((hlisted name binding.type).mp ?_),
      fun f hf hnew name hfunction => ?_, fun i hi => absurd hi (Nat.not_lt_zero i)⟩
    · simp [State.signatures, hget]
    · obtain ⟨-, type, -, htype, -⟩ := hdictionary.defines f hf hnew ⟨name, .inr ⟨_, hfunction⟩⟩
      have hmem := (hlisted name type).mpr ⟨f, hf, hnew, hfunction, htype⟩
      obtain ⟨binding, hget, rfl⟩ := List.mem_map.mp hmem
      exact ⟨binding, Option.mem_toList.mp hget, htype⟩
  have hstart : Checked cx program.items [] q := ⟨frames_of_steps hsteps,
    hslices.grows (ready_of_steps hsteps).table, hdictionary, hglobals, by simp⟩
  refine ⟨items, hfrom, And.right <| checkItems_invariant
    (P := fun seen p => Complete cx items seen p ∧ Checked cx program.items seen p)
    (fun seen item rest p p' hsplit hp hstep => ?_) ⟨hcomplete, hstart⟩ hcheck⟩
  subst hsplit
  have hitem : item ∈ seen ++ item :: rest := by simp
  exact ⟨hp.1.step hitem (hnode item hitem) hstep, hp.2.step htree harena hp.1 hfrom hstep⟩

end Program

end RuleTypes.Check
