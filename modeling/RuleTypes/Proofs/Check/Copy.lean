import RuleTypes.Check.Inference
import RuleTypes.Proofs.Annotations
import RuleTypes.Proofs.Program.Tree
import RuleTypes.Proofs.Scope
import RuleTypes.Proofs.TypeTable.Mirrored

/-!
# Two checks side by side

Two checks look at the same code in different places: some nodes of the one arena have copies in the
other, under other ids, and the tables hold the types of the code under other ids as well. A `Copy`
says where the copies are. `Mirrored` relates the states of the two checks: they know the same names
for the same types, and nodes with copies have the same types. This module follows the operations
that all rules of a check are made of.
-/

namespace RuleTypes

open List (Forall₂)

/-! ## Code in another place -/

/-- The kind of a node whose parts are found elsewhere. -/
def NodeKind.rename (f : NodeId → NodeId) : NodeKind → NodeKind
  | identifier name => identifier name
  | number => number
  | string => string
  | member base field => member (f base) field
  | index base position => index (f base) (f position)
  | call callee args => call (f callee) (args.map f)
  | binary symbol left right => binary symbol (f left) (f right)
  | unary symbol operand => unary symbol (f operand)
  | assign target value => assign (f target) (f value)
  | literal type members => literal type (members.map fun member => (member.1, f member.2))
  | branch condition thenArm elseArm => branch (f condition) (f thenArm) (elseArm.map f)
  | loop start condition body => loop (start.map f) (f condition) (f body)
  | block statements => block (statements.map f)
  | jump kind value => jump kind (value.map f)
  | var name type start => var name type (f start)
  | function name kind params result body => function name kind params result (f body)
  | foreign name params result => foreign name params result
  | struct name fields => struct name fields

/-- A node whose parts are found elsewhere. -/
def Node.rename (f : NodeId → NodeId) (node : Node) : Node := ⟨node.kind.rename f, node.span⟩

namespace NodeKind

variable {f : NodeId → NodeId}

theorem children_rename (kind : NodeKind) : (kind.rename f).children = kind.children.map f := by
  cases kind with
  | branch condition thenArm elseArm => cases elseArm <;> rfl
  | loop start condition body => cases start <;> rfl
  | jump kind value => cases value <;> rfl
  | literal type members => simp [rename, children]
  | _ => rfl

theorem rename_id (kind : NodeKind) : kind.rename id = kind := by
  cases kind <;> simp [rename]

theorem isDefinition_rename (kind : NodeKind) :
    (kind.rename f).isDefinition = kind.isDefinition := by cases kind <;> rfl

theorem isJump_rename (kind : NodeKind) : (kind.rename f).isJump = kind.isJump := by
  cases kind <;> rfl

theorem isPlace_rename (kind : NodeKind) : (kind.rename f).isPlace = kind.isPlace := by
  cases kind <;> rfl

end NodeKind

theorem Node.rename_id (node : Node) : node.rename id = node := by
  rw [Node.rename, NodeKind.rename_id]

/-- The parts of a copied node are the copies of its parts. -/
theorem Arena.IsChild.of_rename {arena arena' : Arena} {f : NodeId → NodeId} {n part : NodeId}
    (hpart : arena.IsChild n part)
    (hn : arena'.node? (f n) = (arena.node? n).map (Node.rename f)) :
    arena'.IsChild (f n) (f part) := by
  obtain ⟨node, hnode, hpart⟩ := hpart
  refine ⟨node.rename f, by rw [hn, hnode]; rfl, ?_⟩
  change f part ∈ (node.kind.rename f).children
  rw [NodeKind.children_rename]
  exact List.mem_map_of_mem hpart

/-! ## Related scopes and operators -/

/-- The same binding under another type id. -/
def Binding.Renames (R : Renaming) (b b' : Binding) : Prop :=
  R.rel b.type b'.type ∧ b'.kind = b.kind

/-- The same kind of frame; a function's result has another type id. -/
inductive FrameKind.Renames (R : Renaming) : FrameKind → FrameKind → Prop
  | global : Renames R .global .global
  | function {result result' : TypeId} (h : R.rel result result') :
      Renames R (.function result) (.function result')
  | loop : Renames R .loop .loop
  | block : Renames R .block .block

/-- A frame of the same kind with the same names. -/
structure Frame.Renames (R : Renaming) (frame frame' : Frame) : Prop where
  kind : frame.kind.Renames R frame'.kind
  bindings : NameMap.Related (Binding.Renames R) frame.bindings frame'.bindings

/-- The same frames with the same names. -/
structure Scope.Renames (R : Renaming) (sc sc' : Scope) : Prop where
  frames : Forall₂ (Frame.Renames R) sc.frames sc'.frames
  globals : NameMap.Related (Binding.Renames R) sc.globals sc'.globals

/-- The same operators over other type ids. -/
structure Operators.Renames (R : Renaming) (ops ops' : Operators) : Prop where
  number : R.rel ops.number ops'.number
  string : R.rel ops.string ops'.string
  truth : R.rel ops.truth ops'.truth
  overloads : NameMap.Related (Forall₂ R.rel) ops.overloads ops'.overloads

section

variable {R R' : Renaming}

theorem Binding.Renames.mono {b b' : Binding} (hR : R ≤ R') (h : b.Renames R b') :
    b.Renames R' b' := ⟨hR _ _ h.1, h.2⟩

theorem FrameKind.Renames.mono {kind kind' : FrameKind} (hR : R ≤ R') (h : kind.Renames R kind') :
    kind.Renames R' kind' := by
  cases h with
  | global => exact .global
  | function h => exact .function (hR _ _ h)
  | loop => exact .loop
  | block => exact .block

theorem Frame.Renames.mono {frame frame' : Frame} (hR : R ≤ R') (h : frame.Renames R frame') :
    frame.Renames R' frame' :=
  ⟨h.kind.mono hR, h.bindings.mono fun _ _ => Binding.Renames.mono hR⟩

theorem Operators.Renames.mono {ops ops' : Operators} (hR : R ≤ R') (h : ops.Renames R ops') :
    ops.Renames R' ops' :=
  ⟨hR _ _ h.number, hR _ _ h.string, hR _ _ h.truth, h.overloads.mono fun _ _ hl => hl.imp hR⟩

/-- The lists that two maps have under one name are related. -/
theorem NameMap.Related.getD {r : List TypeId → List TypeId → Prop} (hnil : r [] [])
    {m m' : NameMap (List TypeId)} (h : NameMap.Related r m m') (name : String) :
    r ((m.get? name).getD []) ((m'.get? name).getD []) := by
  rcases optionRel_cases (h name) with ⟨hx, hy⟩ | ⟨x, y, hx, hy, hxy⟩ <;> rw [hx, hy]
  · exact hnil
  · exact hxy

namespace Scope.Renames

variable {sc sc' : Scope}

theorem mono (hR : R ≤ R') (h : sc.Renames R sc') : sc.Renames R' sc' :=
  ⟨h.frames.imp fun _ _ => Frame.Renames.mono hR, h.globals.mono fun _ _ => Binding.Renames.mono hR⟩

theorem current (h : sc.Renames R sc') :
    NameMap.Related (Binding.Renames R) sc.current sc'.current := by
  obtain ⟨frames, globals⟩ := sc
  obtain ⟨frames', globals'⟩ := sc'
  cases h.frames with
  | nil => exact h.globals
  | cons hframe _ => exact hframe.bindings

theorem lookup (h : sc.Renames R sc') (name : String) :
    Option.Rel (Binding.Renames R) (sc.lookup name) (sc'.lookup name) := by
  obtain ⟨frames, globals⟩ := sc
  obtain ⟨frames', globals'⟩ := sc'
  have hframes : Forall₂ (Frame.Renames R) frames frames' := h.frames
  have hglobals : NameMap.Related (Binding.Renames R) globals globals' := h.globals
  unfold Scope.lookup
  clear h
  induction hframes with
  | nil => exact hglobals name
  | cons hframe _ ih =>
    simp only [List.findSome?_cons]
    rcases optionRel_cases (hframe.bindings name) with ⟨hx, hy⟩ | ⟨x, y, hx, hy, hxy⟩ <;>
      simp only [hx, hy]
    · exact ih
    · exact .some hxy

theorem enclosingResult? (h : sc.Renames R sc') :
    Option.Rel R.rel sc.enclosingResult? sc'.enclosingResult? := by
  obtain ⟨frames, globals⟩ := sc
  obtain ⟨frames', globals'⟩ := sc'
  have hframes : Forall₂ (Frame.Renames R) frames frames' := h.frames
  unfold Scope.enclosingResult?
  clear h
  induction hframes with
  | nil => exact .none
  | @cons frame frame' _ _ hframe _ ih =>
    obtain ⟨kind, bindings⟩ := frame
    obtain ⟨kind', bindings'⟩ := frame'
    cases hframe.kind with
    | function h => exact .some h
    | _ => exact ih

theorem inLoop (h : sc.Renames R sc') : sc'.inLoop = sc.inLoop := by
  obtain ⟨frames, globals⟩ := sc
  obtain ⟨frames', globals'⟩ := sc'
  have hframes : Forall₂ (Frame.Renames R) frames frames' := h.frames
  change Scope.inLoop.go frames' = Scope.inLoop.go frames
  clear h
  induction hframes with
  | nil => rfl
  | @cons frame frame' _ _ hframe _ ih =>
    obtain ⟨kind, bindings⟩ := frame
    obtain ⟨kind', bindings'⟩ := frame'
    cases hframe.kind with
    | block => exact ih
    | _ => rfl

theorem push (h : sc.Renames R sc') {kind kind' : FrameKind} (hkind : kind.Renames R kind') :
    Echoes (Renames R) (sc.push kind) (sc'.push kind') := by
  have hframes : ∀ frame frame', frame.Renames R frame' →
      Renames R { sc with frames := frame :: sc.frames }
        { sc' with frames := frame' :: sc'.frames } :=
    fun _ _ hframe => ⟨.cons hframe h.frames, h.globals⟩
  cases hkind with
  | global => exact .error _ _
  | function hresult => exact .ok (hframes _ _ ⟨.function hresult, .empty⟩)
  | loop => exact .ok (hframes _ _ ⟨.loop, .empty⟩)
  | block => exact .ok (hframes _ _ ⟨.block, .empty⟩)

theorem pop (h : sc.Renames R sc') : Echoes (Renames R) sc.pop sc'.pop := by
  obtain ⟨frames, globals⟩ := sc
  obtain ⟨frames', globals'⟩ := sc'
  cases h.frames with
  | nil => exact .error _ _
  | cons _ hrest => exact .ok ⟨hrest, h.globals⟩

theorem withBinding (h : sc.Renames R sc') (name : String) {b b' : Binding}
    (hb : b.Renames R b') : (sc.withBinding name b).Renames R (sc'.withBinding name b') := by
  obtain ⟨frames, globals⟩ := sc
  obtain ⟨frames', globals'⟩ := sc'
  cases h.frames with
  | nil => exact ⟨.nil, h.globals.insert name hb⟩
  | cons hframe hrest =>
    exact ⟨.cons ⟨hframe.kind, hframe.bindings.insert name hb⟩ hrest, h.globals⟩

theorem unwind (h : sc.Renames R sc') : sc.unwind.Renames R sc'.unwind := ⟨.nil, h.globals⟩

end Scope.Renames

end

namespace Check

variable {ε α β : Type} {cx cx' : Setting}

/-! ## Copies and related states -/

/-- Where the second setting has the code of the first. The code below a node is copied with it. A
node that is shared and not copied has a copy of its own, but other code below it. -/
structure Copy (cx cx' : Setting) where
  /-- Where the copy of a node is. -/
  place : NodeId → NodeId
  shared : NodeId → Prop
  copied : NodeId → Prop
  config : cx'.config = cx.config
  injective : ∀ m n, shared m → shared n → place m = place n → m = n
  shared_of_copied : ∀ n, copied n → shared n
  node? : ∀ n, copied n → cx'.arena.node? (place n) = (cx.arena.node? n).map (Node.rename place)
  part : ∀ n part, copied n → cx.arena.IsChild n part → copied part

/-- The parts of a copy are the copies of the parts. -/
theorem Copy.isChild (M : Copy cx cx') {n part : NodeId} (hn : M.copied n)
    (hpart : cx.arena.IsChild n part) : cx'.arena.IsChild (M.place n) (M.place part) :=
  hpart.of_rename (M.node? n hn)

/-- The same nodes in another setting. -/
def Copy.same (harena : cx'.arena = cx.arena) (hconfig : cx'.config = cx.config) :
    Copy cx cx' where
  place := id
  shared _ := True
  copied _ := True
  config := hconfig
  injective _ _ _ _ := id
  shared_of_copied _ _ := trivial
  node? n _ := by
    rw [harena]
    change cx.arena.node? n = (cx.arena.node? n).map (Node.rename id)
    rw [show Node.rename id = id from funext Node.rename_id, Option.map_id]
    rfl
  part _ _ _ _ := trivial

/-- The two states know the same names for the same types, and shared nodes have the same types. The
signatures of an operator or a member function may stand in another order. -/
structure Mirrored (M : Copy cx cx') (R : Renaming) (s s' : State) : Prop where
  table : TypeTable.Matches R s.table s'.table
  builtin : cx.builtin.Renames R cx'.builtin
  scope : s.scope.Renames R s'.scope
  names : NameMap.Related R.rel s.names s'.names
  operators : NameMap.Related R.Shuffles s.operators s'.operators
  members : NameMap.Related R.Shuffles s.members s'.members
  annotations : ∀ n, M.shared n →
    Option.Rel R.rel (s.annotations.get? n) (s'.annotations.get? (M.place n))
  slots : ∀ n, M.shared n → n.index < s.annotations.size →
    (M.place n).index < s'.annotations.size

variable {M : Copy cx cx'} {R R' : Renaming} {Q : Renaming → α → β → Prop} {s s' : State}
  {a b c d : TypeId} {n : NodeId}

/-- The states stay related when the tables grow. -/
theorem Mirrored.withTable (h : Mirrored M R s s') (hR : R ≤ R') {t t' : TypeTable}
    (ht : TypeTable.Matches R' t t') :
    Mirrored M R' { s with table := t } { s' with table := t' } where
  table := ht
  builtin := h.builtin.mono hR
  scope := h.scope.mono hR
  names := h.names.mono hR
  operators := h.operators.mono fun _ _ => .mono hR
  members := h.members.mono fun _ _ => .mono hR
  annotations n hn := optionRel_imp hR (h.annotations n hn)
  slots := h.slots

/-- Ways to relate states that relate their types, and leave open how the tables grow. -/
class RelatesTypes (S : Renaming → State → State → Prop) : Prop where
  table : ∀ {R s s'}, S R s s' → TypeTable.Matches R s.table s'.table
  names : ∀ {R s s'}, S R s s' → NameMap.Related R.rel s.names s'.names
  withTable : ∀ {R R' s s' t t'}, S R s s' → R ≤ R' → TypeTable.Matches R' t t' →
    S R' { s with table := t } { s' with table := t' }

instance : RelatesTypes (Mirrored M) := ⟨Mirrored.table, Mirrored.names, fun h hR => h.withTable hR⟩

/-! ## Operations -/

theorem report_mirrors (problem : Problem) (span : Span) :
    Mirrors (Mirrored M) Q R (report problem span) (report problem span) := .throw _

theorem require_mirrors {holds holds' : Bool} {problem problem' : Check Problem}
    (hholds : holds' = holds) (hproblem : Mirrors (Mirrored M) (fun _ => Eq) R problem problem')
    (span : Span) : Mirrors (Mirrored M) (fun _ _ _ => True) R (require holds problem span)
      (require holds' problem' span) := by
  rw [hholds]
  cases holds with
  | true => exact .pure fun _ _ => trivial
  | false => exact hproblem.bind fun _ _ _ _ heq => heq ▸ report_mirrors _ span

theorem inspect_mirrors {f : State → Except Fault α} {g : State → Except Fault β}
    (h : ∀ R', R ≤ R' → ∀ s s', Mirrored M R' s s' → Echoes (Q R') (f s) (g s')) :
    Mirrors (Mirrored M) Q R (inspect f) (inspect g) := by
  intro R' hR s s' hs
  unfold inspect
  cases hf : f s with
  | error cause => exact .fault cause s _
  | ok a =>
    obtain ⟨b, hg, hab⟩ := h R' hR s s' hs a hf
    rw [hg]
    exact .ok le_rfl hs hab

theorem update_mirrors {f g : State → Except Fault State}
    (h : ∀ R', R ≤ R' → ∀ s s', Mirrored M R' s s' → Echoes (Mirrored M R') (f s) (g s')) :
    Mirrors (Mirrored M) (fun _ _ _ => True) R (update f) (update g) := by
  intro R' hR s s' hs
  unfold update
  cases hf : f s with
  | error cause => exact .fault cause s _
  | ok s₁ =>
    obtain ⟨s₁', hg, hs₁⟩ := h R' hR s s' hs s₁ hf
    rw [hg]
    exact .ok le_rfl hs₁ trivial

/-- Operations on the tables are followed in the states. -/
theorem onTable_mirrors {S : Renaming → State → State → Prop} [RelatesTypes S] {x : TableM ε α}
    {y : TableM ε β} (hxy : Mirrors TypeTable.Matches Q R x y)
    (problemOf : ε → Except Fault Problem) (span : Span) :
    Mirrors S Q R (onTable problemOf span x) (onTable problemOf span y) := by
  intro R' hR s s' hs
  have hagree := hxy R' hR s.table s'.table (RelatesTypes.table hs)
  unfold onTable
  revert hagree
  generalize x s.table = result
  generalize y s'.table = result'
  intro hagree
  cases hagree with
  | ok hw ht hq => exact .ok hw (RelatesTypes.withTable hs hw ht) hq
  | fault cause t result' => exact .fault cause _ _
  | @error _ cause _ _ hw ht =>
    dsimp only
    cases problemOf cause with
    | error cause => exact .fault cause _ _
    | ok problem => exact .error hw (RelatesTypes.withTable hs hw ht)

/-! ### Types -/

theorem formOf_mirrors (hab : R.rel a b) :
    Mirrors (Mirrored M) (fun R => Form.Renames R.rel) R (formOf a) (formOf b) :=
  inspect_mirrors fun _ hR _ _ hs => hs.table.form_echoes (hR _ _ hab)

theorem textOf_mirrors (hab : R.rel a b) :
    Mirrors (Mirrored M) (fun _ => Eq) R (textOf a) (textOf b) :=
  inspect_mirrors fun _ hR _ _ hs => hs.table.text (hR _ _ hab)

theorem resultOf_mirrors (hab : R.rel a b) :
    Mirrors (Mirrored M) Renaming.rel R (resultOf a) (resultOf b) :=
  inspect_mirrors fun _ hR _ _ hs => hs.table.resultOf (hR _ _ hab)

theorem structOf_mirrors (hab : R.rel a b) :
    Mirrors (Mirrored M) (fun R => Option.Rel (TypeTable.SameStruct R)) R
      (inspect fun s => s.table.structOf a) (inspect fun s => s.table.structOf b) :=
  inspect_mirrors fun _ hR _ _ hs => hs.table.structOf (hR _ _ hab)

/-- A problem that gives the text of a type. -/
theorem reportText_mirrors (problem : String → Problem) (hab : R.rel a b) (span : Span) :
    Mirrors (Mirrored M) Q R (textOf a >>= fun text => report (problem text) span)
      (textOf b >>= fun text => report (problem text) span) :=
  (textOf_mirrors hab).bind fun _ _ _ _ heq => heq ▸ report_mirrors _ span

/-- A problem that gives the texts of two types. -/
theorem twoTexts_mirrors (problem : String → String → Problem) (hab : R.rel a b)
    (hcd : R.rel c d) :
    Mirrors (Mirrored M) (fun _ => Eq) R (do return problem (← textOf a) (← textOf c))
      (do return problem (← textOf b) (← textOf d)) :=
  (textOf_mirrors hab).bind fun _ hR _ _ hx => (textOf_mirrors (hR _ _ hcd)).bind
    fun _ _ _ _ hy => .pure fun _ _ => by rw [hx, hy]

theorem resolve_mirrors (type : TypeExpr) (span : Span) :
    Mirrors (Mirrored M) Renaming.rel R (resolve type span) (resolve type span) :=
  fun R' _ s s' hs =>
    onTable_mirrors (TypeExpr.resolve_mirrors type hs.names) _ span R' le_rfl s s' hs

theorem resolveConcrete_mirrors {S : Renaming → State → State → Prop} [RelatesTypes S]
    (type : TypeExpr) (span : Span) :
    Mirrors S Renaming.rel R (resolveConcrete type span) (resolveConcrete type span) :=
  fun R' _ s s' hs => onTable_mirrors
    (TypeExpr.resolveConcrete_mirrors type (RelatesTypes.names hs)) _ span R' le_rfl s s' hs

theorem select_mirrors {candidates candidates' args args' : List TypeId} (symbol : String)
    (hcandidates : R.Shuffles candidates candidates') (hargs : Forall₂ R.rel args args')
    (span : Span) : Mirrors (Mirrored M) Renaming.rel R (select symbol candidates args span)
      (select symbol candidates' args' span) := by
  intro R' hR s s' hs
  obtain ⟨mid, hmid, hperm⟩ := hcandidates
  obtain ⟨hanswer, hrefused⟩ := hs.table.selectExact symbol (hmid.imp hR) (hargs.imp hR)
  obtain ⟨hsame, hsame'⟩ := s'.table.selectExact_perm symbol args' hperm
  unfold select
  cases hselect : s.table.selectExact symbol candidates args with
  | ok signature =>
    obtain ⟨signature', hselect', hab⟩ := hanswer signature hselect
    rw [hsame.eq_ok hselect']
    exact .ok le_rfl hs hab
  | error e =>
    cases e with
    | fault cause => exact .fault cause s _
    | error cause =>
      rw [hsame' cause (hrefused cause hselect)]
      exact .error le_rfl hs

/-! ### Nodes -/

theorem nodeOf_mirrors (hn : M.copied n) :
    Mirrors (Mirrored M) (fun _ node node' => cx.arena.node? n = some node ∧
      node' = node.rename M.place) R (nodeOf cx n) (nodeOf cx' (M.place n)) := by
  refine inspect_mirrors fun R' _ s s' _ node hnode => ?_
  cases hn' : cx.arena.node? n with
  | none => simp [hn'] at hnode
  | some found =>
    obtain rfl : found = node := by simpa [hn'] using hnode
    rw [M.node? n hn, hn']
    exact ⟨_, rfl, rfl, rfl⟩

theorem Mirrored.get?_eq_none_iff (h : Mirrored M R s s') (hn : M.shared n) :
    s.annotations.get? n = none ↔ s'.annotations.get? (M.place n) = none := by
  rcases optionRel_cases (h.annotations n hn) with ⟨hx, hy⟩ | ⟨x, y, hx, hy, -⟩ <;> simp [hx, hy]

theorem Mirrored.get?_eq_auto_iff (h : Mirrored M R s s') (hn : M.shared n) :
    s.annotations.get? n = some .auto ↔ s'.annotations.get? (M.place n) = some .auto := by
  rcases optionRel_cases (h.annotations n hn) with ⟨hx, hy⟩ | ⟨x, y, hx, hy, hxy⟩
  · simp [hx, hy]
  · simpa [hx, hy] using R.eq_iff hxy R.auto

/-- The states stay related when a shared node and its copy get related types. -/
theorem Mirrored.withAnnotation (h : Mirrored M R s s') (hn : M.shared n) (hab : R.rel a b)
    {annotations annotations' : Annotations} (hsize : annotations.size = s.annotations.size)
    (hsize' : annotations'.size = s'.annotations.size)
    (hget : ∀ m, annotations.get? m = if m = n then some a else s.annotations.get? m)
    (hget' : ∀ m, annotations'.get? m =
      if m = M.place n then some b else s'.annotations.get? m) :
    Mirrored M R { s with annotations } { s' with annotations := annotations' } := by
  refine { h with annotations := fun m hm => ?_, slots := fun m hm hlt => ?_ }
  · change Option.Rel R.rel (annotations.get? m) (annotations'.get? (M.place m))
    rw [hget, hget']
    by_cases heq : m = n
    · rw [if_pos heq, if_pos (congrArg M.place heq)]
      exact .some hab
    · rw [if_neg heq, if_neg fun hplace => heq (M.injective m n hm hn hplace)]
      exact h.annotations m hm
  · change m.index < annotations.size at hlt
    change (M.place m).index < annotations'.size
    rw [hsize']
    exact h.slots m hm (hsize ▸ hlt)

theorem annotate_mirrors (hn : M.shared n) (hab : R.rel a b) :
    Mirrors (Mirrored M) (fun _ _ _ => True) R (annotate n a) (annotate (M.place n) b) := by
  refine update_mirrors fun R' hR s s' hs => ?_
  refine Echoes.bind (Q := fun annotations annotations' =>
    Mirrored M R' { s with annotations } { s' with annotations := annotations' }) ?_
    fun _ _ => .ok
  intro annotations hset
  obtain ⟨hlt, hslot⟩ := Annotations.set_eq_ok.mp hset
  have hslot' : ∃ annotations', s'.annotations.set (M.place n) b = .ok annotations' := by
    rcases hslot with ⟨hnone, -⟩ | ⟨hauto, -⟩
    · exact ⟨_, Annotations.set_eq_ok.mpr
        ⟨hs.slots n hn hlt, .inl ⟨(hs.get?_eq_none_iff hn).mp hnone, rfl⟩⟩⟩
    · exact ⟨_, Annotations.set_eq_ok.mpr
        ⟨hs.slots n hn hlt, .inr ⟨(hs.get?_eq_auto_iff hn).mp hauto, rfl⟩⟩⟩
  obtain ⟨annotations', hset'⟩ := hslot'
  have hgrows := Annotations.Grows.of_set (N := fun _ => True) trivial hset
  have hgrows' := Annotations.Grows.of_set (N := fun _ => True) trivial hset'
  exact ⟨annotations', hset', hs.withAnnotation hn (hR _ _ hab) hgrows.size_eq hgrows'.size_eq
    (Annotations.get?_of_set hset) (Annotations.get?_of_set hset')⟩

theorem annotateProvisional_mirrors (hn : M.shared n) :
    Mirrors (Mirrored M) (fun _ _ _ => True) R (annotateProvisional n)
      (annotateProvisional (M.place n)) := by
  refine update_mirrors fun R' hR s s' hs => ?_
  refine Echoes.bind (Q := fun annotations annotations' =>
    Mirrored M R' { s with annotations } { s' with annotations := annotations' }) ?_
    fun _ _ => .ok
  intro annotations hset
  obtain ⟨hlt, hnone, -⟩ := Annotations.setProvisional_eq_ok.mp hset
  have hset' := Annotations.setProvisional_eq_ok.mpr
    ⟨hs.slots n hn hlt, (hs.get?_eq_none_iff hn).mp hnone, rfl⟩
  have hgrows := Annotations.Grows.of_setProvisional (N := fun _ => True) trivial hset
  have hgrows' := Annotations.Grows.of_setProvisional (N := fun _ => True) trivial hset'
  exact ⟨_, hset', hs.withAnnotation hn R'.auto hgrows.size_eq hgrows'.size_eq
    (Annotations.get?_of_setProvisional hset) (Annotations.get?_of_setProvisional hset')⟩

/-! ### Scopes -/

theorem openFrame_mirrors {kind kind' : FrameKind} (hkind : kind.Renames R kind') :
    Mirrors (Mirrored M) (fun _ _ _ => True) R (openFrame kind) (openFrame kind') :=
  update_mirrors fun _ hR _ _ hs => (hs.scope.push (hkind.mono hR)).bind
    fun _ _ hscope => .ok { hs with scope := hscope }

theorem closeFrame_mirrors :
    Mirrors (Mirrored M) (fun _ _ _ => True) R closeFrame closeFrame :=
  update_mirrors fun _ _ _ _ hs => hs.scope.pop.bind
    fun _ _ hscope => .ok { hs with scope := hscope }

theorem lookup_mirrors (name : String) :
    Mirrors (Mirrored M) (fun R => Option.Rel (Binding.Renames R)) R (lookup name) (lookup name) :=
  .get_bind fun _ _ _ _ hs => .pure fun _ hR =>
    optionRel_imp (fun _ _ => Binding.Renames.mono hR) (hs.scope.lookup name)

theorem bindName_mirrors (name : String) (hab : R.rel a b) (kind : BindingKind) (span : Span) :
    Mirrors (Mirrored M) (fun _ _ _ => True) R (bindName name a kind span)
      (bindName name b kind span) := by
  intro R' hR s s' hs
  have hb : Binding.Renames R' ⟨a, kind, span⟩ ⟨b, kind, span⟩ := ⟨hR _ _ hab, rfl⟩
  unfold bindName
  rcases optionRel_cases (hs.scope.current name) with ⟨hx, hy⟩ | ⟨x, y, hx, hy, -⟩
  · rw [Scope.bind_eq_ok.mpr ⟨hx, rfl⟩, Scope.bind_eq_ok.mpr ⟨hy, rfl⟩]
    exact .ok le_rfl { hs with scope := hs.scope.withBinding name hb } trivial
  · simp only [Scope.bind, hx, hy]
    exact .error le_rfl hs

theorem requireTruth_mirrors (hab : R.rel a b) (span : Span) :
    Mirrors (Mirrored M) (fun _ _ _ => True) R (requireTruth cx a span)
      (requireTruth cx' b span) :=
  .of_states fun R' hR _ _ hs => require_mirrors
    (decide_eq_decide.mpr (R'.eq_iff (hR _ _ hab) hs.builtin.truth).symm)
    (twoTexts_mirrors .conditionMismatch hs.builtin.truth (hR _ _ hab)) span

end Check

end RuleTypes
