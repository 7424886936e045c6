import StudyC.Mgmt.Socket

/-!
# How a dispatch ends

`handler_dispatch` answers twice: with the result code that it leaves in the response, and with the
value that it returns. Only the first tells the outcomes apart.
-/

open CString KeyedList

namespace StudyC.Mgmt.Outcomes

variable {H X : Type} {r : EventHandlerRegistry H X} {req : MgmtCommandRequest}

def Malformed (req : MgmtCommandRequest) : Prop :=
  16 ≤ req.cmdType.toNat ∨ req.targetModule[0]? = some 0 ∨ 512 < req.payloadLen.toNat

def Matches (req : MgmtCommandRequest) (e : EventHandlerEntry H X) : Prop :=
  e.cmdType = req.cmdType ∧ cstr e.moduleName.toList = cstr req.targetModule.toList

instance (req : MgmtCommandRequest) : Decidable (Malformed req) :=
  inferInstanceAs (Decidable (_ ∨ _ ∨ _))

instance (req : MgmtCommandRequest) (e : EventHandlerEntry H X) : Decidable (Matches req e) :=
  inferInstanceAs (Decidable (_ ∧ _))

def Unmatched (r : EventHandlerRegistry H X) (req : MgmtCommandRequest) : Prop :=
  ∀ e ∈ r.entries.live, ¬ Matches req e

/-- The entry whose handler a request reaches. -/
def reached (r : EventHandlerRegistry H X) (req : MgmtCommandRequest) :
    Option (EventHandlerEntry H X) :=
  if Malformed req then none else r.entries.live.find? fun e => Matches req e

/-- What the handler of an entry returns, and the response as it leaves it. -/
def answer (code : HandlerCode H X) (clock : Clock) (req : MgmtCommandRequest)
    (resp : MgmtCommandResponse) (e : EventHandlerEntry H X) : Int × MgmtCommandResponse :=
  code e.handler clock req (prepareResponse req resp) e.context

theorem malformed_iff : Malformed req ↔ mgmtRequestValidate req = false := by
  have hfirst : req.targetModule[0]? = some req.targetModule[0] := Vector.getElem?_eq_getElem _
  rw [← Bool.not_eq_true, validate_iff]
  unfold Malformed mgmtCmdMax mgmtPayloadRequestSize
  rw [hfirst, Option.some.injEq]
  constructor
  · rintro (hcmd | hname | hpayload) ⟨hcmd', hname', hpayload'⟩
    · omega
    · exact hname' hname
    · omega
  · intro h
    by_contra hnot
    rw [not_or, not_or] at hnot
    exact h ⟨by omega, hnot.2.1, by omega⟩

theorem matches_iff (e : EventHandlerEntry H X) : Matches req e ↔ e.key = req.key := by
  unfold Matches EventHandlerEntry.key MgmtCommandRequest.key
  rw [Prod.mk.injEq]

theorem unmatched_iff : Unmatched r req ↔ r.place req.key = none := by
  rw [position_eq_none]
  unfold Unmatched
  simp only [matches_iff, List.mem_map, not_exists, not_and]

theorem reached_of_place {slot : Nat} {e : EventHandlerEntry H X} (hgood : ¬ Malformed req)
    (hp : r.place req.key = some slot) (hlive : r.entries.live[slot]? = some e) :
    reached r req = some e := by
  have hfirst : r.entries.live.findIdx? (fun e => Matches req e) = some slot := by
    simp only [matches_iff]
    exact hp
  unfold reached
  rw [if_neg hgood, List.find?_eq_bind_findIdx?_getElem?, hfirst]
  exact hlive

theorem reached_unmatched (hnone : Unmatched r req) : reached r req = none := by
  unfold reached
  split
  · rfl
  · rw [List.find?_eq_none]
    intro e he
    simpa using hnone e he

theorem account_code (r : EventHandlerRegistry H X) (slot : Slot) (result : Int)
    (resp : MgmtCommandResponse) :
    (dispatchAccount r slot result resp).2.resultCode =
      if result ≠ 0 then MgmtResultCode.handlerFailed.code else resp.resultCode := by
  unfold dispatchAccount
  dsimp only
  split
  · rfl
  · split
    · rename_i hzero
      rw [hzero]
      rfl
    · rfl

theorem dispatch_outcome (code : HandlerCode H X) (clock : Clock) (r : EventHandlerRegistry H X)
    (req : MgmtCommandRequest) (resp : MgmtCommandResponse) :
    (Malformed req ∧ handlerDispatch code clock r req resp =
      ⟨-3, r, { resp with resultCode := MgmtResultCode.invalidCmd.code }, none⟩) ∨
    (¬ Malformed req ∧ Unmatched r req ∧ handlerDispatch code clock r req resp =
      ⟨-1, r, { resp with resultCode := MgmtResultCode.moduleNotFound.code }, none⟩) ∨
    (¬ Malformed req ∧ ∃ e ∈ r.entries.live, Matches req e ∧ reached r req = some e ∧
      (handlerDispatch code clock r req resp).invoked = some e.target ∧
      (handlerDispatch code clock r req resp).ret = (answer code clock req resp e).1 ∧
      (handlerDispatch code clock r req resp).resp.resultCode =
        if (answer code clock req resp e).1 ≠ 0 then MgmtResultCode.handlerFailed.code
        else (answer code clock req resp e).2.resultCode) := by
  have hgood : mgmtRequestValidate req = true → ¬ Malformed req := by
    rw [malformed_iff, Bool.not_eq_false]
    exact id
  rcases handlerDispatch_cases code clock r req resp with
      ⟨hv, he⟩ | ⟨hv, hp, he⟩ | ⟨hv, slot, e, hp, hlive, he⟩
  · exact Or.inl ⟨malformed_iff.mpr hv, he⟩
  · exact Or.inr (Or.inl ⟨hgood hv, unmatched_iff.mpr hp, he⟩)
  · obtain ⟨e', he', hkey, -⟩ := position_eq_some EventHandlerEntry.key EventHandlerEntry.key hp
    obtain rfl := Option.some.inj (hlive.symm.trans he')
    refine Or.inr (Or.inr ⟨hgood hv, e, List.mem_of_getElem? hlive, (matches_iff e).mpr hkey,
      reached_of_place (hgood hv) hp hlive, ?_⟩)
    rw [he]
    exact ⟨rfl, rfl, account_code r slot _ _⟩

/-! ## The result code -/

theorem dispatch_classifies (code : HandlerCode H X) (clock : Clock) (r : EventHandlerRegistry H X)
    (req : MgmtCommandRequest) :
    let o := handlerDispatch code clock r req .zero
    (o.resp.resultCode = MgmtResultCode.invalidCmd.code ∧ o.invoked = none ↔ Malformed req) ∧
      (¬ Malformed req →
        (o.resp.resultCode = MgmtResultCode.moduleNotFound.code ∧ o.invoked = none ↔
          Unmatched r req)) ∧
      (Malformed req ∨ Unmatched r req →
        o.registry = r ∧ ∃ c, o.resp = { MgmtCommandResponse.zero with resultCode := c }) ∧
      (¬ Malformed req → ¬ Unmatched r req → ∃ e ∈ r.entries.live, Matches req e ∧
        o.invoked = some e.target ∧
        o.resp.resultCode =
          if (answer code clock req .zero e).1 ≠ 0 then MgmtResultCode.handlerFailed.code
          else (answer code clock req .zero e).2.resultCode) := by
  intro o
  rcases dispatch_outcome code clock r req .zero with
    ⟨hbad, he⟩ | ⟨hgood, hnone, he⟩ | ⟨hgood, e, hmem, hmatch, -, hinvoked, -, hcode⟩
  · refine ⟨?_, absurd hbad, ?_, absurd hbad⟩
    · simp [o, he, hbad]
    · intro _
      exact ⟨by simp only [o, he], MgmtResultCode.invalidCmd.code, by simp only [o, he]⟩
  · refine ⟨?_, ?_, ?_, fun _ h => absurd hnone h⟩
    · simp [o, he, hgood, MgmtResultCode.code]
    · simp [o, he, hnone]
    · intro _
      exact ⟨by simp only [o, he], MgmtResultCode.moduleNotFound.code, by simp only [o, he]⟩
  · have hsome : ¬ Unmatched r req := fun hnone => hnone e hmem hmatch
    refine ⟨?_, ?_, ?_, fun _ _ => ⟨e, hmem, hmatch, hinvoked, hcode⟩⟩
    · simp [o, hinvoked, hgood]
    · simp [o, hinvoked, hsome]
    · rintro (hbad | hnone)
      · exact absurd hbad hgood
      · exact absurd hnone hsome

/-! ## The value returned -/

/-- What the header says of the value: which handler's result, if any, it stands for. -/
structure Identifies (code : HandlerCode H X) (clock : Clock) (r : EventHandlerRegistry H X)
    (req : MgmtCommandRequest) (resp : MgmtCommandResponse) : Prop where
  zero : (handlerDispatch code clock r req resp).ret = 0 ↔
    ∃ h x, (handlerDispatch code clock r req resp).invoked = some (h, x) ∧
      (code h clock req (prepareResponse req resp) x).1 = 0
  notFound : (handlerDispatch code clock r req resp).ret = -1 ↔ ¬ Malformed req ∧ Unmatched r req
  failed : (handlerDispatch code clock r req resp).ret = -2 ↔
    ∃ h x, (handlerDispatch code clock r req resp).invoked = some (h, x) ∧
      (code h clock req (prepareResponse req resp) x).1 ≠ 0
  rejected : (handlerDispatch code clock r req resp).ret = -3 ↔ Malformed req

/-- The value tells the outcome exactly if the handler that is reached, if any, returns 0 or -2. -/
theorem return_identifies_iff (code : HandlerCode H X) (clock : Clock)
    (r : EventHandlerRegistry H X) (req : MgmtCommandRequest) (resp : MgmtCommandResponse) :
    Identifies code clock r req resp ↔ ∀ e, reached r req = some e →
      (answer code clock req resp e).1 = 0 ∨ (answer code clock req resp e).1 = -2 := by
  rcases dispatch_outcome code clock r req resp with
    ⟨hbad, he⟩ | ⟨hgood, hnone, he⟩ | ⟨hgood, e, hmem, hmatch, hreached, hinvoked, hret, -⟩
  · refine iff_of_true ⟨?_, ?_, ?_, ?_⟩ ?_
    all_goals simp [he, hbad, reached]
  · refine iff_of_true ⟨?_, ?_, ?_, ?_⟩ ?_
    all_goals simp [he, hgood, hnone, reached_unmatched hnone]
  · have hsome : ¬ Unmatched r req := fun hnone => hnone e hmem hmatch
    have hanswer : (code e.handler clock req (prepareResponse req resp) e.context).1 =
        (answer code clock req resp e).1 := rfl
    constructor
    · intro h e' he'
      obtain rfl := Option.some.inj (hreached.symm.trans he')
      by_cases hzero : (answer code clock req resp e).1 = 0
      · exact Or.inl hzero
      · right
        rw [← hret]
        exact h.failed.mpr ⟨e.handler, e.context, hinvoked, hzero⟩
    · intro h
      refine ⟨?_, ?_, ?_, ?_⟩
      all_goals
        simp only [hret, hinvoked, EventHandlerEntry.target, hgood, hsome]
        rcases h e hreached with hzero | hfailed
        · simp [hanswer, hzero]
        · simp [hanswer, hfailed]

def minusOne : HandlerCode Nat Nat := fun _ _ _ resp _ => (-1, resp)

def oneModule : EventHandlerRegistry Nat Nat :=
  (handlerRegister .static (some (.lit "sensor")) 0 2 20).2

def pingModule : MgmtCommandRequest := mgmtRequestInit ⟨⟨1, 0⟩, 1⟩ 0 (some (.lit "sensor")) []

theorem failure_reported_as_not_found :
    ¬ Identifies minusOne ⟨⟨1, 0⟩, 1⟩ oneModule pingModule .zero ∧
      (handlerDispatch minusOne ⟨⟨1, 0⟩, 1⟩ oneModule pingModule .zero).ret = -1 ∧
      (handlerDispatch minusOne ⟨⟨1, 0⟩, 1⟩ oneModule pingModule .zero).invoked = some (2, 20) := by
  have hret : (handlerDispatch minusOne ⟨⟨1, 0⟩, 1⟩ oneModule pingModule .zero).ret = -1 := by
    decide +kernel
  have hinvoked : (handlerDispatch minusOne ⟨⟨1, 0⟩, 1⟩ oneModule pingModule .zero).invoked =
      some (2, 20) := by
    decide +kernel
  refine ⟨?_, hret, hinvoked⟩
  intro h
  have hfailed := h.failed.mpr ⟨2, 20, hinvoked, by simp [minusOne]⟩
  rw [hret] at hfailed
  simp at hfailed

end StudyC.Mgmt.Outcomes
