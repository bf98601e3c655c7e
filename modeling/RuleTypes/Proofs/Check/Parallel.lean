import RuleTypes.Proofs.Check.Ends
import RuleTypes.Proofs.Check.Globals
import RuleTypes.Proofs.Check.Mirrored

/-!
# Definitions side by side

What is done with a definition is done with its copy: the body of a function is checked
(`checkFunction_mirrors`), a struct is declared, filled and laid out, and a function is registered
(`registerFunction_mirrors`), each with the same outcome up to ids of types.
-/

namespace RuleTypes

open List (Forall₂)

namespace Check

variable {α β : Type} {cx cx' : Setting} {M : Copy cx cx'} {R R' : Renaming}
  {Q : Renaming → α → β → Prop} {s s' : State} {n body : NodeId} {types types' : List TypeId}

/-! ## Bodies of functions -/

/-- Copied code returns on every path if the code does. -/
theorem returnsAt_echoes (depth : Nat) : ∀ {depth' : Nat} {n : NodeId}, M.copied n →
    cx'.arena.Fits depth' (M.place n) →
    Echoes Eq (cx.arena.returnsAt depth n) (cx'.arena.returnsAt depth' (M.place n)) := by
  induction depth with
  | zero => exact fun _ _ => .error _ _
  | succ depth ih =>
    intro depth' n hn hfits
    cases depth' with
    | zero => cases hfits
    | succ depth' =>
      rw [Arena.returnsAt, Arena.returnsAt, M.node? n hn]
      cases hnode : cx.arena.node? n with
      | none => exact .error _ _
      | some node =>
        have hpart : ∀ part ∈ node.kind.children,
            Echoes Eq (cx.arena.returnsAt depth part) (cx'.arena.returnsAt depth' (M.place part)) :=
          fun part hpart => ih (M.part n part hn ⟨node, hnode, hpart⟩)
            (hfits.part (M.isChild hn ⟨node, hnode, hpart⟩))
        obtain ⟨kind, span⟩ := node
        cases kind with
        | block statements =>
          simp only [Option.map_some, Node.rename, NodeKind.rename, List.getLast?_map]
          cases hlast : statements.getLast? with
          | none => exact .ok rfl
          | some last => exact hpart last (List.mem_of_getLast? hlast)
        | branch condition thenArm elseArm =>
          cases elseArm with
          | none => exact .ok rfl
          | some elseArm =>
            refine (hpart thenArm (by simp [NodeKind.children])).bind fun x y hxy => ?_
            subst hxy
            cases x with
            | true => exact hpart elseArm (by simp [NodeKind.children])
            | false => exact .ok rfl
        | jump kind value => cases kind <;> exact .ok rfl
        | _ => exact .ok rfl

theorem bindParams_mirrors (span : Span) (params : List (String × TypeExpr))
    (htypes : Forall₂ R.rel types types') :
    Mirrors (Mirrored M) (fun _ _ _ => True) R (bindParams span params types)
      (bindParams span params types') := by
  induction params generalizing R types types' with
  | nil => exact .pure fun _ _ => trivial
  | cons param params ih =>
    cases htypes with
    | nil => exact .pure fun _ _ => trivial
    | cons hab htypes =>
      exact (bindName_mirrors param.1 hab .parameter span).bind fun _ hR _ _ _ =>
        ih (htypes.imp hR)

/-- The same function at another node, with its signature under another id. -/
structure SameFunction (M : Copy cx cx') (R : Renaming) (f g : CheckedFunction) : Prop where
  name : g.name = f.name
  kind : g.kind = f.kind
  signature : R.rel f.signature g.signature
  symbol : g.symbol = f.symbol
  node : g.node = M.place f.node

theorem signature_mirrors (hn : M.shared n) :
    Mirrors (Mirrored M) Renaming.rel R
      (inspect fun s =>
        match s.annotations.get? n with
        | some signature => .ok signature
        | none => .error (.unprepared n))
      (inspect fun s =>
        match s.annotations.get? (M.place n) with
        | some signature => .ok signature
        | none => .error (.unprepared (M.place n))) := by
  refine inspect_mirrors fun R' _ s s' hs => ?_
  rcases optionRel_cases (hs.annotations n hn) with ⟨hx, hy⟩ | ⟨a, b, hx, hy, hab⟩
  · simp only [hx, hy]
    exact .error _ _
  · simp only [hx, hy]
    exact .ok hab

theorem checkFunction_mirrors (hn : M.shared n) (hbody : M.copied body)
    (hfits : cx'.arena.Fits cx'.arena.size (M.place body)) (span : Span) (name : String)
    (kind : FunctionKind) (params : List (String × TypeExpr)) :
    Mirrors (Mirrored M) (SameFunction M) R (checkFunction cx n span name kind params body)
      (checkFunction cx' (M.place n) span name kind params (M.place body)) := by
  refine (signature_mirrors hn).bind fun R₁ _ a b hab => ?_
  refine (formOf_mirrors hab).bind fun R₂ hR₂ f g hform => ?_
  rcases optionRel_cases hform.signature? with ⟨hf, hg⟩ | ⟨⟨ps, res⟩, ⟨ps', res'⟩, hf, hg, hsig⟩
  · simp only [hf, hg]
    exact .fault _ _
  obtain ⟨hparams, hresult⟩ : Forall₂ R₂.rel ps ps' ∧ R₂.rel res res' := hsig
  simp only [hf, hg]
  refine (openFrame_mirrors (.function hresult)).bind fun R₃ hR₃ _ _ _ => ?_
  refine (bindParams_mirrors span params (hparams.imp hR₃)).bind fun R₄ hR₄ _ _ _ => ?_
  have hinfer := inferAt_mirrors cx.depth hbody (hfits.mono cx'.size_le_depth)
  refine (hinfer.mirrors R₄).bind fun R₅ hR₅ c d hcd => ?_
  have hnone := R₅.eq_iff hcd R₅.noValue
  have hresult₅ := hR₅ _ _ (hR₄ _ _ (hR₃ _ _ hresult))
  refine Mirrors.bind (Q := fun _ => Eq) ?_ fun R₆ hR₆ returns _ hreturns => ?_
  · refine inspect_mirrors fun _ _ _ _ _ => ?_
    by_cases hc : c = .noValue
    · rw [if_pos hc, if_pos (hnone.mp hc)]
      exact returnsAt_echoes _ hbody (hfits.mono (Nat.le_succ _))
    · rw [if_neg hc, if_neg (mt hnone.mpr hc)]
      exact .ok rfl
  subst hreturns
  refine (nodeOf_mirrors hbody).bind fun R₇ hR₇ node node' hnode => ?_
  rw [hnode.2]
  have hlift := hR₆.trans hR₇
  refine (require_mirrors (decide_eq_decide.mpr (or_congr (R₅.eq_iff hcd hresult₅)
    (and_congr_left' hnone)).symm)
    (twoTexts_mirrors .resultMismatch (hlift _ _ hresult₅) (hlift _ _ hcd)) node.span).bind
    fun R₈ hR₈ _ _ _ => ?_
  refine closeFrame_mirrors.bind fun R₉ hR₉ _ _ _ => ?_
  have hab₉ := hR₉ _ _ (hR₈ _ _ (hlift _ _ (hR₅ _ _ (hR₄ _ _ (hR₃ _ _ (hR₂ _ _ hab))))))
  refine Mirrors.bind (Q := fun _ => Eq) (inspect_mirrors fun _ hR _ _ hs =>
    hs.table.fingerprint (hR _ _ hab₉)) fun R₁₀ hR₁₀ x y hxy => .pure fun R₁₁ hR₁₁ => ?_
  subst hxy
  exact ⟨rfl, rfl, hR₁₁ _ _ (hR₁₀ _ _ hab₉), rfl, rfl⟩

/-! ## Registration -/

/-- The copy of the definition of a struct. -/
def Copy.structDef (M : Copy cx cx') (d : StructDef) : StructDef :=
  { d with node := M.place d.node }

/-- The copy of the head of a function. -/
def Copy.functionDef (M : Copy cx cx') (d : FunctionDef) : FunctionDef :=
  { d with node := M.place d.node }

theorem declareStruct_mirrors {d : StructDef} (hd : M.shared d.node) :
    Mirrors (Mirrored M) (fun _ _ _ => True) R (declareStruct d)
      (declareStruct (M.structDef d)) := by
  refine (require_mirrors rfl (.pure fun _ _ => rfl) d.span).bind fun R₁ _ _ _ _ => ?_
  refine .get_bind fun R₂ _ s s' hs => ?_
  have hnew : (!s'.names.contains d.name && (s'.table.primitive? d.name).isNone) =
      (!s.names.contains d.name && (s.table.primitive? d.name).isNone) := by
    rw [hs.names.contains d.name]
    rcases optionRel_cases (hs.table.primitive? d.name) with ⟨hx, hy⟩ | ⟨a, b, hx, hy, -⟩ <;>
      simp only [hx, hy, Option.isNone_none, Option.isNone_some]
  refine (require_mirrors hnew (.pure fun _ _ => rfl) d.span).bind fun R₃ _ _ _ _ => ?_
  refine (onTable_mirrors (TypeTable.reserve_mirrors d.name) _ d.span).bind fun R₄ _ a b hab => ?_
  refine (Mirrors.modify fun R₅ hR₅ s s' hs => ?_).bind fun R₅ hR₅ _ _ _ =>
    annotate_mirrors hd (hR₅ _ _ hab)
  exact { hs with names := hs.names.insert d.name (hR₅ _ _ hab) }

theorem Mirrored.forget (hs : Mirrored M R s s') {a b : TypeId} (hab : R.rel a b)
    (name : String) : Mirrored M R (forget name a s) (forget name b s') := by
  have hnamed : s.names.get? name = some a ↔ s'.names.get? name = some b := by
    rcases optionRel_cases (hs.names name) with ⟨hx, hy⟩ | ⟨x, y, hx, hy, hxy⟩
    · simp [hx, hy]
    · simpa [hx, hy] using R.eq_iff hxy hab
  unfold Check.forget
  simp only [hnamed]
  split
  · exact { hs with names := hs.names.erase name }
  · exact hs

theorem orForget_mirrors {x y : Check Unit} {a b : TypeId} (name : String) (hab : R.rel a b)
    (hxy : Mirrors (Mirrored M) (fun _ _ _ => True) R x y) :
    Mirrors (Mirrored M) (fun _ _ _ => True) R (orForget name a x) (orForget name b y) := by
  intro R' hR s s' hs
  have hagree := hxy R' hR s s' hs
  unfold orForget
  revert hagree
  generalize x s = result
  generalize y s' = result'
  intro hagree
  cases hagree with
  | ok hw hs hq => exact .ok hw hs hq
  | error hw hs => exact .error hw (hs.forget (hw _ _ (hR _ _ hab)) name)
  | fault => exact .fault _ _ _

theorem resolveFields_mirrors (span : Span) (fields : List (String × TypeExpr)) :
    Mirrors (Mirrored M) (fun R => Forall₂ (Form.SameField R.rel)) R (resolveFields span fields)
      (resolveFields span fields) := by
  induction fields generalizing R with
  | nil => exact .pure fun _ _ => .nil
  | cons field fields ih =>
    exact (resolveConcrete_mirrors field.2 span).bind fun _ _ _ _ hab => ih.bind
      fun _ hR₁ _ _ hrest => .pure fun _ hR₂ => .cons ⟨rfl, hR₂ _ _ (hR₁ _ _ hab)⟩
        (hrest.imp fun _ _ hfield => ⟨hfield.1, hR₂ _ _ hfield.2⟩)

theorem fillStruct_mirrors {d : StructDef} (hd : M.shared d.node) :
    Mirrors (Mirrored M) (fun _ _ _ => True) R (fillStruct d) (fillStruct (M.structDef d)) :=
  (signature_mirrors hd).bind fun _ _ _ _ hab => orForget_mirrors d.name hab <|
    (resolveFields_mirrors d.span d.fields).bind fun _ hR _ _ hfields =>
      onTable_mirrors (TypeTable.fill_mirrors (hR _ _ hab) hfields) _ d.span

theorem checkLayout_mirrors {d : StructDef} (hd : M.shared d.node) :
    Mirrors (Mirrored M) (fun _ _ _ => True) R (checkLayout d) (checkLayout (M.structDef d)) := by
  refine (signature_mirrors hd).bind fun R₁ _ a b hab => orForget_mirrors d.name hab ?_
  refine Mirrors.bind (Q := fun _ => Eq) (inspect_mirrors fun _ hR _ _ hs =>
    hs.table.containsItself (hR _ _ hab)) fun R₂ hR₂ x y hxy => ?_
  refine (require_mirrors (by rw [hxy]) (.pure fun _ _ => rfl) d.span).bind fun R₃ hR₃ _ _ _ => ?_
  refine Mirrors.bind (Q := fun _ => Eq) (inspect_mirrors fun _ hR _ _ hs =>
    hs.table.firstBroken? hs.names (hR _ _ (hR₃ _ _ (hR₂ _ _ hab)))) fun R₄ _ u v huv => ?_
  subst huv
  cases u with
  | none => exact .pure fun _ _ => trivial
  | some name => exact report_mirrors _ d.span

theorem resolveParams_mirrors {S : Renaming → State → State → Prop} [RelatesTypes S] (span : Span)
    (params : List (String × TypeExpr)) :
    Mirrors S (fun R => Forall₂ R.rel) R (resolveParams span params)
      (resolveParams span params) := by
  induction params generalizing R with
  | nil => exact .pure fun _ _ => .nil
  | cons param params ih =>
    exact (resolveConcrete_mirrors param.2 span).bind fun _ _ _ _ hab => ih.bind
      fun _ hR₁ _ _ hrest => .pure fun _ hR₂ => .cons (hR₂ _ _ (hR₁ _ _ hab)) (hrest.imp hR₂)

theorem signatureOf_mirrors {S : Renaming → State → State → Prop} [RelatesTypes S]
    (d : FunctionDef) : Mirrors S Renaming.rel R (signatureOf d) (signatureOf d) := by
  refine (resolveParams_mirrors d.span d.params).bind fun R₁ _ params params' hparams => ?_
  have hintern : ∀ {R₂ a b}, R₁ ≤ R₂ → R₂.rel a b → Mirrors S Renaming.rel R₂
      (onTable Problem.ofTable d.span (TypeTable.internFunction params a))
      (onTable Problem.ofTable d.span (TypeTable.internFunction params' b)) :=
    fun hR hab => onTable_mirrors (TypeTable.internFunction_mirrors (hparams.imp hR) hab) _ d.span
  obtain ⟨node, span, name, kind, params, result⟩ := d
  cases result with
  | none => exact (Mirrors.pure fun R _ => R.noValue).bind fun _ hR _ _ => hintern hR
  | some result => exact (resolveConcrete_mirrors result span).bind fun _ hR _ _ => hintern hR

theorem contains_eq {ids ids' : List TypeId} {a b : TypeId} (hids : R.Shuffles ids ids')
    (hab : R.rel a b) : ids'.contains b = ids.contains a := by
  rw [Bool.eq_iff_iff, List.contains_iff_mem, List.contains_iff_mem]
  exact (hids.mem_iff hab).symm

theorem registerOperator_mirrors (symbol : String) (arity : Nat) {a b : TypeId} (hab : R.rel a b)
    (span : Span) : Mirrors (Mirrored M) (fun _ _ _ => True) R
      (registerOperator cx symbol arity a span) (registerOperator cx' symbol arity b span) := by
  refine (require_mirrors (by rw [M.config]) (.pure fun _ _ => rfl) span).bind
    fun R₁ hR₁ _ _ _ => ?_
  refine (require_mirrors rfl (.pure fun _ _ => rfl) span).bind fun R₂ hR₂ _ _ _ => ?_
  refine .get_bind fun R₃ hR₃ s s' hs => ?_
  have hab₃ := hR₃ _ _ (hR₂ _ _ (hR₁ _ _ hab))
  have hown := hs.operators.getD .nil symbol
  refine (require_mirrors ?_ (.pure fun _ _ => rfl) span).bind fun R₄ hR₄ _ _ _ => ?_
  · have hbuiltin := contains_eq (.of_forall₂ (hs.builtin.overloads.getD .nil symbol)) hab₃
    rw [Operators.candidates, Operators.candidates, hbuiltin, contains_eq hown hab₃]
  · refine .modify fun R₅ hR₅ s s' hs => { hs with operators := ?_ }
    exact hs.operators.insert symbol
      ((hown.append (.of_forall₂ (.cons hab₃ .nil))).mono (hR₄.trans hR₅))

theorem registerMember_mirrors (name : String) (arity : Nat) {a b : TypeId} (hab : R.rel a b)
    (span : Span) : Mirrors (Mirrored M) (fun _ _ _ => True) R
      (registerMember name arity a span) (registerMember name arity b span) := by
  refine (require_mirrors rfl (.pure fun _ _ => rfl) span).bind fun R₁ hR₁ _ _ _ => ?_
  refine .get_bind fun R₂ hR₂ s s' hs => ?_
  have hab₂ := hR₂ _ _ (hR₁ _ _ hab)
  have hown := hs.members.getD .nil name
  refine (formOf_mirrors hab₂).bind fun R₃ hR₃ f g hform => ?_
  obtain ⟨mid, hmid, hperm⟩ := id hown
  refine Mirrors.bind (Q := fun R forms forms' =>
      ∃ mid, Forall₂ (Form.Renames R.rel) forms mid ∧ mid.Perm forms')
    (inspect_mirrors fun _ hR _ _ hs => ?_) fun R₄ hR₄ others others' hothers => ?_
  · intro forms hforms
    obtain ⟨forms', hforms', hrenames⟩ := Echoes.mapM
      (hmid.imp fun _ _ hcd => hs.table.form_echoes ((hR₃.trans hR) _ _ hcd)) forms hforms
    obtain ⟨forms'', hforms'', hperm'⟩ := Echoes.mapM_perm _ hperm forms' hforms'
    exact ⟨forms'', hforms'', forms', hrenames, hperm'⟩
  obtain ⟨middle, hmiddle, hothers⟩ := hothers
  have hparams : ∀ {f f' g g' : Form}, f.Renames R₄.rel f' → g.Renames R₄.rel g' →
      (f.signature?.map (·.1) = g.signature?.map (·.1) ↔
        f'.signature?.map (·.1) = g'.signature?.map (·.1)) := by
    intro f f' g g' hf hg
    rcases optionRel_cases hf.signature? with ⟨hx, hy⟩ | ⟨x, y, hx, hy, hxy⟩ <;>
      rcases optionRel_cases hg.signature? with ⟨hu, hv⟩ | ⟨u, v, hu, hv, huv⟩ <;>
      simp [hx, hy, hu, hv]
    exact Relator.rel_eq R₄.biUnique.forall₂ hxy.1 huv.1
  have hall : (others'.all fun other => other.signature?.map (·.1) ≠ g.signature?.map (·.1)) =
      others.all fun other => other.signature?.map (·.1) ≠ f.signature?.map (·.1) := by
    rw [← hothers.all_eq]
    clear hothers
    induction hmiddle with
    | nil => rfl
    | cons hother _ ih =>
      rw [List.all_cons, List.all_cons, ih,
        decide_eq_decide.mpr (not_congr (hparams hother (hform.mono hR₄)).symm)]
  refine (require_mirrors hall (.pure fun _ _ => rfl) span).bind fun R₅ hR₅ _ _ _ => ?_
  refine .modify fun R₆ hR₆ s s' hs => { hs with members := ?_ }
  exact hs.members.insert name ((hown.append (.of_forall₂ (.cons hab₂ .nil))).mono
    (hR₃.trans (hR₄.trans (hR₅.trans hR₆))))

theorem registerFunction_mirrors {d : FunctionDef} (hd : M.shared d.node) :
    Mirrors (Mirrored M) (fun _ _ _ => True) R (registerFunction cx d)
      (registerFunction cx' (M.functionDef d)) := by
  refine (signatureOf_mirrors d).bind fun R₁ _ a b hab => ?_
  have hannotate : ∀ {R₂}, R₁ ≤ R₂ → Mirrors (Mirrored M) (fun _ _ _ => True) R₂
      (annotate d.node a) (annotate (M.place d.node) b) :=
    fun hR => annotate_mirrors hd (hR _ _ hab)
  obtain ⟨node, span, name, kind, params, result⟩ := d
  cases kind with
  | none => exact (bindName_mirrors name hab .foreign span).bind fun _ hR _ _ _ => hannotate hR
  | some kind =>
    cases kind with
    | normal => exact (bindName_mirrors name hab .function span).bind fun _ hR _ _ _ => hannotate hR
    | symbolic =>
      exact (registerOperator_mirrors name params.length hab span).bind
        fun _ hR _ _ _ => hannotate hR
    | member =>
      exact (registerMember_mirrors name params.length hab span).bind fun _ hR _ _ _ => hannotate hR

end Check

end RuleTypes
