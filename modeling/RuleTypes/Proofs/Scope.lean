import Mathlib.Order.Defs.Unbundled
import RuleTypes.Scope

/-!
# Scopes that gain bindings

What binding a name and opening and closing frames do to a scope, and two ways in which a scope can
go on: its innermost frame gained bindings (`Gains`), or in addition frames were opened that are
not closed yet (`Leaves`).
-/

namespace RuleTypes

/-- Every binding stayed, and the new ones are of a kind. -/
structure NameMap.Gains {α : Type} (W : String → α → Prop) (m m' : NameMap α) : Prop where
  kept : ∀ name value, m.get? name = some value → m'.get? name = some value
  new : ∀ name value, m'.get? name = some value → m.get? name = some value ∨ W name value

namespace NameMap.Gains

variable {α : Type} {W W' : String → α → Prop} {m m' m'' : NameMap α}

theorem refl (W : String → α → Prop) (m : NameMap α) : m.Gains W m :=
  ⟨fun _ _ h => h, fun _ _ h => .inl h⟩

theorem trans (h : m.Gains W m') (h' : m'.Gains W m'') : m.Gains W m'' where
  kept name value hm := h'.kept name value (h.kept name value hm)
  new name value hm := (h'.new name value hm).elim (h.new name value) .inr

theorem mono (hW : ∀ name value, W name value → W' name value) (h : m.Gains W m') :
    m.Gains W' m' :=
  ⟨h.kept, fun name value hm => (h.new name value hm).imp_right (hW name value)⟩

/-- Where nothing is to be gained, nothing changes. -/
theorem get?_eq (h : m.Gains (fun _ _ => False) m') (name : String) :
    m'.get? name = m.get? name := by
  refine Option.ext fun value => ⟨fun hm => ?_, h.kept name value⟩
  exact (h.new name value hm).resolve_right not_false

theorem insert {name : String} {value : α} (hnew : m.get? name = none) (hW : W name value) :
    m.Gains W (m.insert name value) where
  kept other old hold := by
    have hne : other ≠ name := by
      rintro rfl
      simp [hnew] at hold
    rw [get?_insert, if_neg hne, hold]
  new other old hold := by
    rw [get?_insert] at hold
    split at hold
    · obtain rfl := Option.some.inj hold
      exact .inr (‹other = name› ▸ hW)
    · exact .inl hold

end NameMap.Gains

namespace Scope

variable {sc sc' sc'' : Scope} {name : String} {binding : Binding} {kind : FrameKind}
  {W W' : String → Binding → Prop}

/-! ## Operations that answer -/

/-- The scope after a name was bound in its innermost frame. -/
def withBinding (sc : Scope) (name : String) (binding : Binding) : Scope :=
  match sc.frames with
  | [] => { sc with globals := sc.globals.insert name binding }
  | frame :: frames =>
    { sc with frames := { frame with bindings := frame.bindings.insert name binding } :: frames }

theorem bind_eq_ok : sc.bind name binding = .ok sc' ↔
    sc.current.get? name = none ∧ sc' = sc.withBinding name binding := by
  unfold bind withBinding
  cases sc.current.get? name with
  | some existing => simp
  | none => cases sc.frames <;> simp [eq_comm]

/-- At top level, names are bound globally. -/
theorem current_of_global (h : sc.frames = []) : sc.current = sc.globals := by
  simp only [current, h]

theorem lookup_of_global (h : sc.frames = []) (name : String) :
    sc.lookup name = sc.globals.get? name := by
  simp [lookup, h]

/-- What is bound in the innermost frame hides all else. -/
theorem lookup_of_current (h : sc.current.get? name = some binding) :
    sc.lookup name = some binding := by
  obtain ⟨_ | ⟨frame, frames⟩, globals⟩ := sc
  · exact h
  · have hframe : frame.bindings.get? name = some binding := h
    simp [lookup, hframe]

theorem withBinding_of_global (h : sc.frames = []) (name : String) (binding : Binding) :
    sc.withBinding name binding = { sc with globals := sc.globals.insert name binding } := by
  simp only [withBinding, h]

theorem get?_current_withBinding (sc : Scope) (name : String) (binding : Binding) :
    (sc.withBinding name binding).current.get? name = some binding := by
  obtain ⟨_ | ⟨frame, frames⟩, globals⟩ := sc
  · exact (NameMap.get?_insert ..).trans (if_pos rfl)
  · exact (NameMap.get?_insert ..).trans (if_pos rfl)

theorem push_eq_ok : sc.push kind = .ok sc' ↔
    kind ≠ .global ∧ sc' = { sc with frames := ⟨kind, .empty⟩ :: sc.frames } := by
  unfold push
  split <;> simp_all [eq_comm]

theorem pop_eq_ok : sc.pop = .ok sc' ↔
    ∃ frame, sc = { sc' with frames := frame :: sc'.frames } := by
  obtain ⟨frames, globals⟩ := sc
  obtain ⟨frames', globals'⟩ := sc'
  cases frames <;> simp [pop]

/-! ## Bindings in any frame -/

/-- Some name is bound to the binding, in whatever frame. -/
def Contains (sc : Scope) (binding : Binding) : Prop :=
  (∃ frame ∈ sc.frames, ∃ name, frame.bindings.get? name = some binding) ∨
    ∃ name, sc.globals.get? name = some binding

theorem contains_of_lookup (h : sc.lookup name = some binding) : sc.Contains binding := by
  obtain hframe | ⟨-, hglobal⟩ := Option.or_eq_some_iff.mp h
  · obtain ⟨frame, hmem, hget⟩ := List.exists_of_findSome?_eq_some hframe
    exact .inl ⟨frame, hmem, name, hget⟩
  · exact .inr ⟨name, hglobal⟩

/-- The function around is that of a frame. -/
theorem exists_frame_of_enclosingResult? {result : TypeId}
    (h : sc.enclosingResult? = some result) :
    ∃ frame ∈ sc.frames, frame.kind = .function result := by
  obtain ⟨frame, hmem, hresult⟩ := List.exists_of_findSome?_eq_some h
  refine ⟨frame, hmem, ?_⟩
  cases hkind : frame.kind <;> simp_all

theorem Contains.of_withBinding {other : Binding}
    (h : (sc.withBinding name binding).Contains other) : other = binding ∨ sc.Contains other := by
  have hinsert : ∀ {m : NameMap Binding} {key : String},
      (m.insert name binding).get? key = some other →
        other = binding ∨ m.get? key = some other := by
    intro m key hget
    rw [NameMap.get?_insert] at hget
    split at hget
    · exact .inl (Option.some.inj hget).symm
    · exact .inr hget
  obtain ⟨_ | ⟨first, frames⟩, globals⟩ := sc
  · obtain ⟨frame, hframe, -⟩ | ⟨key, hget⟩ := h
    · cases hframe
    · exact (hinsert hget).imp_right fun hget => .inr ⟨key, hget⟩
  · obtain ⟨frame, hframe, key, hget⟩ | ⟨key, hget⟩ := h
    · obtain rfl | hframe := List.mem_cons.mp hframe
      · exact (hinsert hget).imp_right fun hget => .inl ⟨first, List.mem_cons_self .., key, hget⟩
      · exact .inr (.inl ⟨frame, List.mem_cons_of_mem _ hframe, key, hget⟩)
    · exact .inr (.inr ⟨key, hget⟩)

/-- Binding a name opens no frame. -/
theorem kind_of_withBinding {frame : Frame} (h : frame ∈ (sc.withBinding name binding).frames) :
    ∃ old ∈ sc.frames, old.kind = frame.kind := by
  obtain ⟨_ | ⟨first, frames⟩, globals⟩ := sc
  · cases h
  · obtain rfl | h := List.mem_cons.mp h
    · exact ⟨first, List.mem_cons_self .., rfl⟩
    · exact ⟨frame, List.mem_cons_of_mem _ h, rfl⟩

theorem Contains.of_push (hpush : sc.push kind = .ok sc') (h : sc'.Contains binding) :
    sc.Contains binding := by
  obtain ⟨-, rfl⟩ := push_eq_ok.mp hpush
  obtain ⟨frame, hframe, key, hget⟩ | hglobal := h
  · obtain rfl | hframe := List.mem_cons.mp hframe
    · cases hget
    · exact .inl ⟨frame, hframe, key, hget⟩
  · exact .inr hglobal

theorem Contains.of_pop (hpop : sc.pop = .ok sc') (h : sc'.Contains binding) :
    sc.Contains binding := by
  obtain ⟨last, rfl⟩ := pop_eq_ok.mp hpop
  exact h.imp_left fun ⟨frame, hframe, hget⟩ => ⟨frame, List.mem_cons_of_mem _ hframe, hget⟩

theorem Contains.of_unwind (h : sc.unwind.Contains binding) : sc.Contains binding := by
  obtain ⟨frame, hframe, -⟩ | hglobal := h
  · cases hframe
  · exact .inr hglobal

/-! ## Going on -/

/-- The innermost frame gained bindings, and nothing else changed. -/
inductive Gains (W : String → Binding → Prop) : Scope → Scope → Prop
  | global {globals globals' : NameMap Binding} (h : globals.Gains W globals') :
      Gains W ⟨[], globals⟩ ⟨[], globals'⟩
  | inner {kind : FrameKind} {bindings bindings' : NameMap Binding} {frames : List Frame}
      {globals : NameMap Binding} (h : bindings.Gains W bindings') :
      Gains W ⟨⟨kind, bindings⟩ :: frames, globals⟩ ⟨⟨kind, bindings'⟩ :: frames, globals⟩

/-- The innermost frame gained bindings, and frames were opened over it. -/
def Leaves (W : String → Binding → Prop) (sc sc' : Scope) : Prop :=
  ∃ mid opened, sc.Gains W mid ∧ sc' = { mid with frames := opened ++ mid.frames }

namespace Gains

theorem refl (W : String → Binding → Prop) : ∀ sc : Scope, sc.Gains W sc
  | ⟨[], _⟩ => .global (.refl W _)
  | ⟨_ :: _, _⟩ => .inner (.refl W _)

theorem trans (h : sc.Gains W sc') (h' : sc'.Gains W sc'') : sc.Gains W sc'' := by
  cases h with
  | global h =>
    cases h' with
    | global h' => exact .global (h.trans h')
  | inner h =>
    cases h' with
    | inner h' => exact .inner (h.trans h')

theorem mono (hW : ∀ name binding, W name binding → W' name binding) (h : sc.Gains W sc') :
    sc.Gains W' sc' := by
  cases h with
  | global h => exact .global (h.mono hW)
  | inner h => exact .inner (h.mono hW)

theorem withBinding (hnew : sc.current.get? name = none) (hW : W name binding) :
    sc.Gains W (sc.withBinding name binding) := by
  obtain ⟨_ | ⟨frame, frames⟩, globals⟩ := sc
  · exact .global (.insert hnew hW)
  · exact .inner (.insert hnew hW)

theorem leaves (h : sc.Gains W sc') : sc.Leaves W sc' := ⟨sc', [], h, rfl⟩

theorem trans_leaves (h : sc.Gains W sc') (h' : sc'.Leaves W sc'') : sc.Leaves W sc'' := by
  obtain ⟨mid, opened, hmid, rfl⟩ := h'
  exact ⟨mid, opened, h.trans hmid, rfl⟩

/-- No frame is open afterwards if none was before. -/
theorem frames_eq_nil (h : sc.Gains W sc') (hframes : sc.frames = []) : sc'.frames = [] := by
  cases h with
  | global h => rfl
  | inner h => cases hframes

/-- At top level, the global names gained bindings. -/
theorem globals (h : sc.Gains W sc') (hframes : sc.frames = []) :
    sc.globals.Gains W sc'.globals := by
  cases h with
  | global h => exact h
  | inner h => cases hframes

theorem get?_current (h : sc.Gains W sc') (hget : sc.current.get? name = some binding) :
    sc'.current.get? name = some binding := by
  cases h with
  | global h => exact h.kept name binding hget
  | inner h => exact h.kept name binding hget

/-- Where nothing is to be gained, the globals stay. -/
theorem get?_globals_eq (h : sc.Gains (fun _ _ => False) sc') (name : String) :
    sc'.globals.get? name = sc.globals.get? name := by
  cases h with
  | global h => exact h.get?_eq name
  | inner h => rfl

/-- The same function is around as before. -/
theorem enclosingResult?_eq (h : sc.Gains W sc') : sc'.enclosingResult? = sc.enclosingResult? := by
  cases h <;> rfl

/-- The same loop is around as before. -/
theorem inLoop_eq (h : sc.Gains W sc') : sc'.inLoop = sc.inLoop := by
  cases h <;> rfl

/-- A frame that is opened, used and closed leaves nothing behind. -/
theorem eq_of_pop {frame : Frame}
    (h : ({ sc with frames := frame :: sc.frames } : Scope).Gains W sc')
    (hpop : sc'.pop = .ok sc'') : sc'' = sc := by
  obtain ⟨last, rfl⟩ := pop_eq_ok.mp hpop
  obtain ⟨frames, globals⟩ := sc
  obtain ⟨frames'', globals''⟩ := sc''
  cases h
  rfl

/-- A frame that is opened and used can be closed. -/
theorem pop_eq_ok {frame : Frame}
    (h : ({ sc with frames := frame :: sc.frames } : Scope).Gains W sc') : sc'.pop = .ok sc := by
  obtain ⟨frames, globals⟩ := sc
  cases h
  rfl

end Gains

/-- A frame that is opened and not closed is one of those left open. -/
theorem Leaves.of_opened {frame : Frame}
    (h : ({ sc with frames := frame :: sc.frames } : Scope).Leaves W sc') : sc.Leaves W' sc' := by
  obtain ⟨mid, opened, hmid, rfl⟩ := h
  cases hmid with
  | @inner kind bindings bindings' =>
    refine ⟨sc, opened ++ [⟨kind, bindings'⟩], .refl W' sc, ?_⟩
    rw [List.append_assoc, List.singleton_append]

end Scope

end RuleTypes
