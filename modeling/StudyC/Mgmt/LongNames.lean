import StudyC.Mgmt.RegistryRuns

/-!
# Names of any length

`handler_register` looks a name up whole and stores its first 63 bytes. A name that is cut is never
found again, so a second registration adds a second entry and a removal finds nothing.
-/

open CString KeyedList Runs

namespace StudyC.Mgmt.LongNames

inductive Edit (H X : Type) where
  | register (m : CStr) (cmdType : UInt8) (handler : H) (context : X)
  | unregister (m : CStr) (cmdType : UInt8)

variable {H X : Type} [Zero H] [DecidableEq H]

def edit (r : EventHandlerRegistry H X) : Edit H X → Int × EventHandlerRegistry H X
  | .register m c h x => handlerRegister r (some m) c h x
  | .unregister m c => handlerUnregister r (some m) c

def Edit.event : Edit H X → Event H X
  | .register m c h x => .bound (c, m.bytes) (h, x)
  | .unregister m c => .unbound (c, m.bytes)

def edited (s : Run H X) (e : Edit H X) : Run H X :=
  let o := edit s.registry e
  ⟨o.2, if o.1 = 0 then e.event :: s.history else s.history⟩

theorem edited_ok {s : Run H X} {e : Edit H X} (h : (edit s.registry e).1 = 0) :
    edited s e = ⟨(edit s.registry e).2, e.event :: s.history⟩ := by
  simp only [edited, if_pos h]

theorem edited_failed {s : Run H X} {e : Edit H X} (h : (edit s.registry e).1 = -1) :
    edited s e = ⟨(edit s.registry e).2, s.history⟩ := by
  simp only [edited, if_neg (show (edit s.registry e).1 ≠ 0 by rw [h]; decide)]

def editStep (s : Run H X) (e : Edit H X) : Option (Run H X) := some (edited s e)

def start [Zero X] : Run H X := ⟨(handlerRegistryInit true .static).2, []⟩

/-! ## The property -/

/-- No pair has two entries, and a pair that was registered and not removed since can be removed
and replaced. -/
structure PairsOk (s : Run H X) : Prop where
  unique : s.registry.UniqueKeys
  undo : ∀ (m : CStr) c, lastBinding s.history (c, m.bytes) ≠ none →
    (handlerUnregister s.registry (some m) c).1 = 0
  replace : ∀ (m : CStr) c h x, lastBinding s.history (c, m.bytes) ≠ none → Registrable c h →
    (handlerRegister s.registry (some m) c h x).1 = 0 ∧
    (handlerRegister s.registry (some m) c h x).2.entries.count = s.registry.entries.count ∧
    (handlerRegister s.registry (some m) c h x).2.toMap (c, m.bytes) = some (h, x)

/-- A registration that is valid and finds a free slot has a name that the slot stores whole. -/
def NameFits (s : Run H X) : Edit H X → Prop
  | .register m c h _ => Registrable c h → s.registry.entries.count < maxEventHandlers →
      m.bytes.length < mgmtModuleNameSize
  | .unregister _ _ => True

/-! ## Stored names -/

theorem edit_shortNames {r : EventHandlerRegistry H X} (hr : r.ShortNames) (e : Edit H X) :
    (edit r e).2.ShortNames := by
  cases e with
  | register m c h x => exact register_shortNames hr m c h x
  | unregister m c => exact unregister_shortNames hr m c

omit [Zero H] [DecidableEq H] in
theorem unregister_long {r : EventHandlerRegistry H X} (hr : r.ShortNames) {m : CStr}
    (hm : mgmtModuleNameSize ≤ m.bytes.length) (c : UInt8) :
    (handlerUnregister r (some m) c).1 = -1 := by
  -- a name that does not fit is not found, so it cannot be removed
  rcases handlerUnregister_cases r m c with ⟨-, he⟩ | ⟨i, -, hp, -⟩
  · rw [he]
  · have hlt : m.bytes.length < mgmtModuleNameSize := hr _ (mem_keys_of_place hp)
    omega

theorem register_long {r : EventHandlerRegistry H X} (hr : r.ShortNames) {m : CStr}
    (hm : mgmtModuleNameSize ≤ m.bytes.length) {c : UInt8} {h : H} (x : X) (hreg : Registrable c h)
    (hroom : r.entries.count < maxEventHandlers) : (handlerRegister r (some m) c h x).1 = 0 := by
  rcases handlerRegister_cases r m c h x with ⟨-, hfull⟩ | ⟨-, i, hp, -⟩ | ⟨-, -, -, old, he⟩
  · exact absurd hroom (hfull hreg).2
  · have hlt : m.bytes.length < mgmtModuleNameSize := hr _ (mem_keys_of_place hp)
    omega
  · rw [he]

/-! ## Runs -/

structure EditInv (s : Run H X) : Prop where
  unique : s.registry.UniqueKeys
  history : lastBinding s.history = s.registry.toMap
  short : s.registry.ShortNames

theorem pairsOk_of_inv {s : Run H X} (hinv : EditInv s) : PairsOk s := by
  have hplace : ∀ (m : CStr) c, lastBinding s.history (c, m.bytes) ≠ none →
      ∃ i, s.registry.place (c, m.bytes) = some i := by
    intro m c hb
    rw [hinv.history, Ne, toMap_none_iff] at hb
    exact Option.ne_none_iff_exists'.mp hb
  refine ⟨hinv.unique, fun m c hb => ?_, fun m c h x hb hr => ?_⟩
  · obtain ⟨i, hi⟩ := hplace m c hb
    rcases unregister_live hinv.unique m c with ⟨hp, -⟩ | ⟨-, -, h0, -⟩
    · rw [hi] at hp; simp at hp
    · exact h0
  · obtain ⟨i, hi⟩ := hplace m c hb
    rcases handlerRegister_cases s.registry m c h x with ⟨-, hfull⟩ | ⟨-, j, hj, he⟩ | ⟨-, hp, -⟩
    · rw [(hfull hr).1] at hi; simp at hi
    · rw [he]
      refine ⟨rfl, SlotTable.count_modify _ _ _, ?_⟩
      rw [EventHandlerRegistry.toMap, SlotTable.live_modify,
        toMap_modify _ _ (v := (h, x)) hj (fun a => rebind_key a h x) (fun _ => rfl),
        Function.update_self]
    · rw [hp] at hi; simp at hi

theorem edited_register_inv {s : Run H X} {m : CStr} {c : UInt8} {h : H} {x : X} (hinv : EditInv s)
    (hfits : NameFits s (.register m c h x)) : EditInv (edited s (.register m c h x)) := by
  have hshort := edit_shortNames hinv.short (.register m c h x)
  rcases handlerRegister_cases s.registry m c h x with ⟨he, -⟩ | hok
  · rw [edited_failed (by rw [edit, he]), edit, he]
    exact hinv
  · have hr : Registrable c h := by
      rcases hok with ⟨hr, -⟩ | ⟨hr, -⟩
      · exact hr
      · exact hr
    have hlen : m.bytes.length < mgmtModuleNameSize := by
      rcases hok with ⟨-, i, hp, -⟩ | ⟨-, -, hroom, -⟩
      · exact hinv.short _ (mem_keys_of_place hp)
      · exact hfits hr hroom
    have h0 : (handlerRegister s.registry (some m) c h x).1 = 0 := by
      rcases hok with ⟨-, i, -, he⟩ | ⟨-, -, -, old, he⟩
      · rw [he]
      · rw [he]
    have href := register_refines (x := x) hinv.unique hlen hr
    rw [edited_ok (e := .register m c h x) h0]
    refine ⟨register_uniqueKeys hinv.unique hlen, ?_, hshort⟩
    rw [h0, HandlerMap.register] at href
    split at href
    · rw [Edit.event, lastBinding_bound, hinv.history]
      exact (Prod.mk.inj href).2.symm
    · cases (Prod.mk.inj href).1

theorem edited_unregister_inv {s : Run H X} (hinv : EditInv s) (m : CStr) (c : UInt8) :
    EditInv (edited s (.unregister m c)) := by
  have hshort := edit_shortNames hinv.short (.unregister m c)
  have hunique := unregister_uniqueKeys hinv.unique m c
  have href := unregister_refines hinv.unique m c
  rw [HandlerMap.unregister] at href
  split at href
  · obtain ⟨h0, hmap⟩ := Prod.mk.inj href
    rw [edited_ok (e := .unregister m c) h0]
    refine ⟨hunique, ?_, hshort⟩
    rw [Edit.event, lastBinding_unbound, hinv.history]
    exact hmap.symm
  · obtain ⟨h1, hmap⟩ := Prod.mk.inj href
    rw [edited_failed (e := .unregister m c) h1]
    exact ⟨hunique, hinv.history.trans hmap.symm, hshort⟩

theorem edited_inv {s : Run H X} {e : Edit H X} (hinv : EditInv s) (hfits : NameFits s e) :
    EditInv (edited s e) := by
  cases e with
  | register m c h x => exact edited_register_inv hinv hfits
  | unregister m c => exact edited_unregister_inv hinv m c

theorem pairsOk_iff (s : Run H X) (e : Edit H X) (hinv : EditInv s) :
    PairsOk (edited s e) ↔ NameFits s e := by
  refine ⟨fun hok => ?_, fun hfits => pairsOk_of_inv (edited_inv hinv hfits)⟩
  cases e with
  | unregister m c => trivial
  | register m c h x =>
    intro hr hroom
    by_contra hlong
    rw [Nat.not_lt] at hlong
    have h0 := register_long hinv.short hlong x hr hroom
    rw [edited_ok (e := .register m c h x) h0] at hok
    have hundo := hok.undo m c (by simp [Edit.event, lastBinding])
    rw [unregister_long (edit_shortNames hinv.short _) hlong] at hundo
    simp at hundo

/-- The pairs are in order all along a run exactly if every name it registers fits. -/
theorem pairs_ok_iff_names_fit [Zero X] (es : List (Edit H X)) :
    Along editStep (fun s e => PairsOk (edited s e)) start es ↔
      Along editStep NameFits start es := by
  refine along_congr (I := EditInv) (fun s e s' hinv hfits hs => ?_) pairsOk_iff ?_ es
  · obtain rfl := Option.some.inj hs
    exact edited_inv hinv hfits
  · have hlive : (start : Run H X).registry.entries.live = [] := rfl
    refine ⟨?_, ?_, ?_⟩
    · simp [EventHandlerRegistry.UniqueKeys, hlive]
    · funext k
      rw [EventHandlerRegistry.toMap, hlive]
      rfl
    · simp [EventHandlerRegistry.ShortNames, hlive]

def longName : CStr := .letters 64

theorem long_name_doubles :
    ∃ s : Run Nat Nat, exec editStep start [.register longName 0 1 0, .register longName 0 2 0] =
      some s ∧
      ¬ s.registry.UniqueKeys ∧ lastBinding s.history (0, longName.bytes) = some (2, 0) ∧
      (handlerUnregister s.registry (some longName) 0).1 = -1 := by
  refine ⟨(exec editStep start [.register longName 0 1 0, .register longName 0 2 0]).get
    (by decide +kernel), (Option.some_get _).symm, ?_, by decide +kernel, by decide +kernel⟩
  unfold EventHandlerRegistry.UniqueKeys
  decide +kernel

end StudyC.Mgmt.LongNames
