import RuleTypes.Proofs.Check.Signatures
import RuleTypes.Proofs.Fingerprint
import RuleTypes.Proofs.TypeTable.Reachable

/-!
# Symbols of functions

A checked function is linked under its name and the fingerprint of its signature. Registration
keeps functions of one kind apart: global names are bound once, an operator has each signature
once, and the member functions of a name differ in their parameters (`Enlisted.apart`). The three
registries do not look at each other, so functions of different kinds may have one name and one
signature, and then they have one symbol (`symbol_eq_iff_of_run`).
-/

namespace RuleTypes

namespace Check

open Relation

variable {cx : Setting} {s s' : State} {p p' q : Progress} {item : Item} {items : List Item}

/-! ## The pass over the items -/

theorem checkItem_eq_some {f : CheckedFunction} (h : checkItem cx item s = .ok (some f) s') :
    ∃ name kind params result body, item.node.kind = .function name kind params result body ∧
      checkFunction cx item.id item.node.span name kind params body s = .ok f s' := by
  unfold checkItem at h
  cases hkind : item.node.kind with
  | function name kind params result body =>
    simp only [hkind, bind_eq_ok, pure_eq_ok, Option.some.injEq] at h
    obtain ⟨_, _, hfunction, rfl, rfl⟩ := h
    exact ⟨name, kind, params, result, body, rfl, hfunction⟩
  | _ =>
    simp only [hkind, bind_eq_ok, pure_eq_ok, reduceCtorEq, false_and, and_false,
      exists_false] at h

/-- The function is that of the item: it has the signature that the item was registered with and
the symbol that goes with it. -/
structure Lists (q : Progress) (table : TypeTable) (item : Item) (f : CheckedFunction) : Prop where
  node : item.id = f.node
  kind : ∃ params result body, item.node.kind = .function f.name f.kind params result body
  registered : f.node ∉ q.failed
  signature : ∀ type, q.state.annotations.get? f.node = some type → type ≠ .auto →
    f.signature = type
  symbol : ∃ fingerprint, table.fingerprint f.signature = .ok fingerprint ∧
    f.symbol = f.name ++ "@" ++ fingerprint.text

theorem Lists.mem_functionDefs {table : TypeTable} {f : CheckedFunction}
    (h : Lists q table item f) (hitem : item ∈ items) :
    ∃ d ∈ (items.filterMap Item.functionDef?).map (·.2),
      d.node = f.node ∧ d.name = f.name ∧ d.use = f.kind := by
  obtain ⟨params, result, body, hkind⟩ := h.kind
  refine ⟨⟨item.id, item.node.span, f.name, some f.kind, params, result⟩, ?_, h.node, rfl, rfl⟩
  refine List.mem_map.mpr ⟨(item.position, _), List.mem_filterMap.mpr ⟨item, hitem, ?_⟩, rfl⟩
  simp only [Item.functionDef?, hkind]

/-- What holds while items are looked at, when `q` is where registration ended. -/
structure Listed (q : Progress) (seen : List Item) (p : Progress) : Prop where
  failed : p.failed = q.failed
  kept : ∀ id type, q.state.annotations.get? id = some type → type ≠ .auto →
    p.state.annotations.get? id = some type
  nodes : (p.functions.map (·.node)).Sublist (seen.map (·.id))
  lists : ∀ f ∈ p.functions, ∃ item ∈ seen, Lists q p.state.table item f

/-- The step for one item. -/
theorem Listed.step {seen : List Item} (hlisted : Listed q seen p) (h : ItemStep cx item p p') :
    Listed q (seen ++ [item]) p' := by
  have hmoves : Moves (Later fun _ => True) (checkItem cx item) := checkItem_forward item
  have hwider : ∀ {table}, p.state.table.Extends table → ∀ f ∈ p.functions,
      ∃ item' ∈ seen ++ [item], Lists q table item' f := by
    intro table hextends f hf
    obtain ⟨item', hitem', hlists⟩ := hlisted.lists f hf
    obtain ⟨fingerprint, hfingerprint, hsymbol⟩ := hlists.symbol
    exact ⟨item', List.mem_append_left _ hitem', { hlists with
      symbol := ⟨fingerprint, TypeTable.fingerprint_extends hextends hfingerprint, hsymbol⟩ }⟩
  have hnodes : (p.functions.map (·.node)).Sublist ((seen ++ [item]).map (·.id)) :=
    hlisted.nodes.trans ((List.sublist_append_left seen [item]).map _)
  cases h with
  | skip => exact ⟨hlisted.failed, hlisted.kept, hnodes, hwider (.refl _)⟩
  | @found finding state hnew h =>
    obtain ⟨s₁, annotations, herror, hback, rfl⟩ := attempt_eq_error h
    have hlater := hmoves.error herror
    obtain ⟨a, ha, -, -, hkept, -, -⟩ := hlater.annotations.rollback
    obtain rfl : annotations = a := Except.ok.inj (hback.symm.trans ha)
    refine ⟨hlisted.failed, fun id type htype hne => ?_, hnodes, hwider hlater.table⟩
    have hold := hlisted.kept id type htype hne
    exact (hkept id (by simpa [hold] using hne)).trans hold
  | @done function? state hnew h =>
    have hlater := hmoves.ok h
    have hkept : ∀ id type, q.state.annotations.get? id = some type → type ≠ .auto →
        state.annotations.get? id = some type := fun id type htype hne =>
      hlater.annotations.final id type (hlisted.kept id type htype hne) hne
    cases function? with
    | none =>
      refine ⟨hlisted.failed, hkept, ?_, ?_⟩
      · simpa using hnodes
      · simpa using hwider hlater.table
    | some f =>
      obtain ⟨name, kind, params, result, body, hkind, hfunction⟩ := checkItem_eq_some h
      obtain ⟨signature, _, _, _, _, _, _, _, fingerprint, hsignature, -, -, -, -, -, -, -,
        hfingerprint, rfl⟩ := checkFunction_eq_ok hfunction
      refine ⟨hlisted.failed, hkept, ?_, fun g hg => ?_⟩
      · simpa using hlisted.nodes.append (List.Sublist.refl [item.id])
      · obtain hg | hg := List.mem_append.mp hg
        · exact hwider hlater.table g hg
        · obtain rfl := List.mem_singleton.mp hg
          refine ⟨item, by simp, rfl, ⟨params, result, body, hkind⟩, hlisted.failed ▸ hnew,
            fun type htype hne => ?_, fingerprint, hfingerprint, rfl⟩
          exact Option.some.inj (hsignature.symm.trans (hlisted.kept _ type htype hne))

theorem listed_of_checkItems (hfunctions : q.functions = [])
    (h : q.checkItems cx items = .ok p) : Listed q items p :=
  checkItems_invariant (fun _ _ _ _ _ _ hlisted hstep => hlisted.step hstep)
    ⟨rfl, fun _ _ h _ => h, by simp [hfunctions], by simp [hfunctions]⟩ h

/-- **Which functions share a symbol.** Of two entries in the list of a run, both have the same
symbol if and only if they are of different kinds and have one name and one signature, as long as
fingerprints tell the signatures in the list apart. -/
theorem symbol_eq_iff_of_run {ids : List NodeId} {table : TypeTable} (hdistinct : ids.Nodup)
    (hcanonical : table.Canonical) (hrun : run cx ids table = .ok p)
    (hfingerprint : ∀ f ∈ p.functions, ∀ g ∈ p.functions,
      p.state.table.fingerprint f.signature = p.state.table.fingerprint g.signature →
        f.signature = g.signature)
    {i j : Nat} {f g : CheckedFunction} (hij : i ≠ j) (hf : p.functions[i]? = some f)
    (hg : p.functions[j]? = some g) :
    f.symbol = g.symbol ↔ f.kind ≠ g.kind ∧ f.name = g.name ∧ f.signature = g.signature := by
  obtain ⟨items, q, hfrom, hregistered, hcheck⟩ := run_eq_ok.mp hrun
  obtain ⟨hids, -⟩ := itemsFrom_eq_ok hfrom
  have henlisted := enlisted_of_registered hcanonical hdistinct hfrom hregistered
  have hready := ready_of_steps (registered_steps hregistered)
  rw [← hids] at hdistinct
  have hlisted : Listed q items p := listed_of_checkItems hready.functions hcheck
  have hfmem := List.mem_of_getElem? hf
  have hgmem := List.mem_of_getElem? hg
  obtain ⟨itemf, hitemf, hlistsf⟩ := hlisted.lists f hfmem
  obtain ⟨itemg, hitemg, hlistsg⟩ := hlisted.lists g hgmem
  -- entries at different places are different items
  have hne : f.node ≠ g.node := by
    intro heq
    have hnodup := hlisted.nodes.nodup hdistinct
    have hlt : i < (p.functions.map (·.node)).length := by
      rw [List.length_map]
      exact (List.getElem?_eq_some_iff.mp hf).1
    exact hij ((List.getElem?_inj hlt hnodup).mp (by simp [hf, hg, heq]))
  have hkinds : f.name = g.name → f.signature = g.signature → f.kind ≠ g.kind := by
    intro hname hsignature hkind
    obtain ⟨d, hd, hdnode, hdname, hduse⟩ := hlistsf.mem_functionDefs hitemf
    obtain ⟨e, he, henode, hename, heuse⟩ := hlistsg.mem_functionDefs hitemg
    have hdfailed : d.node ∉ q.failed := hdnode ▸ hlistsf.registered
    have hefailed : e.node ∉ q.failed := henode ▸ hlistsg.registered
    refine henlisted.apart d hd e he (by rwa [hdnode, henode]) hdfailed hefailed
      (by rw [hdname, hename, hname]) (by rw [hduse, heuse, hkind]) ?_
    have hbase := hcanonical.grows hready.table
    obtain ⟨typef, htypef, hformf, -⟩ := henlisted.written d hd hdfailed
    obtain ⟨typeg, htypeg, hformg, -⟩ := henlisted.written e he hefailed
    have hf := hlistsf.signature typef (hdnode ▸ htypef) (hformf.ne_auto hbase)
    have hg := hlistsg.signature typeg (henode ▸ htypeg) (hformg.ne_auto hbase)
    rw [htypef, htypeg, ← hf, ← hg, hsignature]
  obtain ⟨digestf, hdigestf, hsymbolf⟩ := hlistsf.symbol
  obtain ⟨digestg, hdigestg, hsymbolg⟩ := hlistsg.symbol
  have hdigests : digestf = digestg ↔ f.signature = g.signature := by
    constructor
    · rintro rfl
      exact hfingerprint f hfmem g hgmem (hdigestf.trans hdigestg.symm)
    · intro hsignature
      rw [hsignature] at hdigestf
      exact Except.ok.inj (hdigestf.symm.trans hdigestg)
  rw [hsymbolf, hsymbolg, Fingerprint.append_text_inj, String.append_left_inj, hdigests]
  exact ⟨fun ⟨hname, hsignature⟩ => ⟨hkinds hname hsignature, hname, hsignature⟩, And.right⟩

end Check

end RuleTypes
