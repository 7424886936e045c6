import StudyC.Ctl.Send
import StudyC.Mgmt.RegistryMap

/-!
# Many clients at once

Any number of `mgmtctl` processes talk to one server. The name of a client's socket is made from its
process id, and nothing else tells two clients apart. That is enough as long as a process id comes
back only when no request of its earlier owner is left at the server: a call that has timed out may
leave one.

* `own_undisturbed`: then the only reply that is sent to the name of a call is the one to its
  request.
* `calls_answered`: a call that returns 0 has the one answer that the server has made to its
  request.
-/

open CString Runs

namespace StudyC.Ctl

open Mgmt

variable {H X : Type}

/-- The name of the client leads to this call. -/
def Phase.bound : Phase → Bool
  | .sendto | .poll | .recv | .cleanup _ => true
  | .socket | .unlink | .bind | .done _ => false

def Phase.pastSend : Phase → Bool
  | .poll | .recv | .cleanup _ | .done _ => true
  | .socket | .unlink | .bind | .sendto => false

def Phase.isDone : Phase → Bool
  | .done _ => true
  | _ => false

/-- Process `pid` is in call `c`. -/
def Running (s : State H X) (c pid : Nat) : Prop :=
  ∃ call ∈ s.calls c, call.pid = pid ∧ call.phase.isDone = false

instance (s : State H X) (c pid : Nat) : Decidable (Running s c pid) :=
  inferInstanceAs (Decidable (∃ call ∈ s.calls c, call.pid = pid ∧ call.phase.isDone = false))

/-- A process is in one call at a time, and gets an id under which no request waits at the server.
Other processes stay away from the names of the calls. -/
def OwnNames (s : State H X) : Action → Prop
  | .call pid .. => (∀ c < s.built.length, ¬ Running s c pid) ∧ ∀ p ∈ s.inbox, p.replyTo ≠ pid
  | .foreignRequest pid _ => ∀ c < s.built.length, ¬ Running s c pid
  | .foreignSend pid d => d.size < mgmtResponseSize ∨ s.name pid = none
  | .run _ _ | .serve _ _ => True

/-! ## One system call of a client -/

structure RunEffect (s : State H X) (c : Nat) (call : Call) (s' : State H X) (call' : Call) :
    Prop where
  calls : s'.calls = Function.update s.calls c (some call')
  pid : call'.pid = call.pid
  req : call'.req = call.req
  running : call.phase.isDone = false
  pastSend : call.phase.pastSend = true → call'.phase.pastSend = true
  built : s'.built = s.built
  registry : s'.registry = s.registry
  served : s'.served = s.served
  names : ∀ pid c', s'.name pid = some c' →
    (s.name pid = some c' ∧ (call.phase.bound = true → call'.phase.bound = true ∨ pid ≠ call.pid)) ∨
      (pid = call.pid ∧ c' = c ∧ call'.phase.bound = true)
  inbox : s'.inbox = s.inbox ∨
    s'.inbox = s.inbox ++ [⟨call.req, call.pid, some c⟩] ∧ call.phase.pastSend = false ∧
    call'.phase.pastSend = true
  returned : ∀ resp, call'.phase = .done (some resp) → call.phase = .cleanup (some resp)

theorem setName_none {s : State H X} {pid pid' c : Nat}
    (h : (s.setName pid none).name pid' = some c) : s.name pid' = some c ∧ pid' ≠ pid := by
  simp only [State.setName, Function.update_apply] at h
  split at h
  · simp at h
  · exact ⟨h, by assumption⟩

theorem RunEffect.setPhase {s : State H X} {c : Nat} {call : Call} {ph : Phase}
    {queue : List Datagram} (hrunning : call.phase.isDone = false)
    (hpast : call.phase.pastSend = true → ph.pastSend = true)
    (hbound : call.phase.bound = true → ph.bound = true) (hret : ∀ resp, ph ≠ .done (some resp)) :
    RunEffect s c call (s.setCall c { call with phase := ph, queue := queue })
      { call with phase := ph, queue := queue } where
  calls := rfl
  pid := rfl
  req := rfl
  running := hrunning
  pastSend := hpast
  built := rfl
  registry := rfl
  served := rfl
  names := fun _ _ h => .inl ⟨h, fun hb => .inl (hbound hb)⟩
  inbox := .inl rfl
  returned := fun resp h => absurd h (hret resp)

theorem run_effect {s s' : State H X} {c : Nat} {call : Call} {ok : Bool}
    (hs : mgmtSendCommand s c call ok = some s') : ∃ call', RunEffect s c call s' call' := by
  unfold mgmtSendCommand at hs
  split at hs <;> rename_i hp
  · obtain rfl := Option.some.inj hs
    refine ⟨_, .setPhase (by simp [hp, Phase.isDone]) (by simp [hp, Phase.pastSend])
      (by simp [hp, Phase.bound]) ?_⟩
    cases ok <;> simp
  · -- the name is taken from whoever had it
    obtain rfl := Option.some.inj hs
    refine ⟨_, rfl, rfl, rfl, by simp [hp, Phase.isDone], by simp [hp, Phase.pastSend], rfl, rfl,
      rfl, ?_, .inl rfl, by simp⟩
    exact fun pid c' h => .inl ⟨(setName_none h).1, by simp [hp, Phase.bound]⟩
  · split at hs <;> obtain rfl := Option.some.inj hs
    · refine ⟨_, rfl, rfl, rfl, by simp [hp, Phase.isDone], by simp [hp, Phase.pastSend], rfl, rfl,
        rfl, ?_, .inl rfl, by simp⟩
      intro pid c' h
      simp only [State.setCall, State.setName, Function.update_apply] at h
      split at h
      · rename_i hpid
        exact .inr ⟨hpid, (Option.some.inj h).symm, rfl⟩
      · exact .inl ⟨h, by simp [hp, Phase.bound]⟩
    · exact ⟨_, .setPhase (by simp [hp, Phase.isDone]) (fun _ => rfl) (fun _ => rfl) (by simp)⟩
  · split at hs <;> obtain rfl := Option.some.inj hs
    · refine ⟨_, rfl, rfl, rfl, by simp [hp, Phase.isDone], fun _ => rfl, rfl, rfl, rfl, ?_,
        ?_, by simp⟩
      · exact fun pid c' h => .inl ⟨h, fun _ => .inl rfl⟩
      · exact .inr ⟨rfl, by simp [hp, Phase.pastSend], rfl⟩
    · exact ⟨_, .setPhase (by simp [hp, Phase.isDone]) (fun _ => rfl) (fun _ => rfl) (by simp)⟩
  · split at hs
    · obtain rfl := Option.some.inj hs
      exact ⟨_, .setPhase (by simp [hp, Phase.isDone]) (fun _ => rfl) (fun _ => rfl) (by simp)⟩
    · split at hs
      · simp at hs
      · obtain rfl := Option.some.inj hs
        exact ⟨_, .setPhase (by simp [hp, Phase.isDone]) (fun _ => rfl) (fun _ => rfl) (by simp)⟩
  · split at hs
    · simp at hs
    · obtain rfl := Option.some.inj hs
      exact ⟨_, .setPhase (by simp [hp, Phase.isDone]) (fun _ => rfl) (fun _ => rfl) (by simp)⟩
  · obtain rfl := Option.some.inj hs
    refine ⟨_, rfl, rfl, rfl, by simp [hp, Phase.isDone], fun _ => rfl, rfl, rfl, rfl, ?_,
      .inl rfl, by simp [hp]⟩
    intro pid c' h
    obtain ⟨hname, hpid⟩ := setName_none h
    exact .inl ⟨hname, fun _ => .inr hpid⟩
  · simp at hs

/-! ## Who a name leads to -/

structure Linked (s : State H X) : Prop where
  number : ∀ c, s.built.length ≤ c → s.calls c = none
  bound : ∀ pid c, s.name pid = some c → ∃ call, s.calls c = some call ∧ call.pid = pid ∧
    call.phase.bound = true
  alone : ∀ pid c c', Running s c pid → Running s c' pid → c = c'
  waiting : ∀ p ∈ s.inbox, ∀ c, Running s c p.replyTo → p.call = some c

/-- The steps that leave the names and the phases of the calls alone. -/
structure SameCalls (s s' : State H X) : Prop where
  name : s'.name = s.name
  built : s'.built = s.built
  calls : ∀ c, (s'.calls c).map (fun call => (call.pid, call.req, call.phase)) =
    (s.calls c).map fun call => (call.pid, call.req, call.phase)

theorem deliver_same (s : State H X) (pid : Nat) (d : Datagram) :
    SameCalls s (s.deliver pid d) := by
  unfold State.deliver
  split
  · exact ⟨rfl, rfl, fun _ => rfl⟩
  · rename_i c hname
    refine ⟨rfl, rfl, fun c' => ?_⟩
    simp only [Function.update_apply]
    split
    · rename_i hc
      rw [hc, Option.map_map]
      rfl
    · rfl

theorem deliver_records (s : State H X) (pid : Nat) (d : Datagram) :
    (s.deliver pid d).inbox = s.inbox ∧ (s.deliver pid d).served = s.served ∧
      (s.deliver pid d).registry = s.registry := by
  unfold State.deliver
  split <;> exact ⟨rfl, rfl, rfl⟩

theorem SameCalls.find {s s' : State H X} (h : SameCalls s s') {c : Nat} {call' : Call}
    (hc : s'.calls c = some call') :
    ∃ call, s.calls c = some call ∧ call.pid = call'.pid ∧ call.req = call'.req ∧
      call.phase = call'.phase := by
  have hsame := h.calls c
  rw [hc, Option.map_some, eq_comm, Option.map_eq_some_iff] at hsame
  obtain ⟨call, hcall, heq⟩ := hsame
  simp only [Prod.mk.injEq] at heq
  exact ⟨call, hcall, heq⟩

theorem SameCalls.symm {s s' : State H X} (h : SameCalls s s') : SameCalls s' s :=
  ⟨h.name.symm, h.built.symm, fun c => (h.calls c).symm⟩

theorem SameCalls.running {s s' : State H X} (h : SameCalls s s') {c pid : Nat}
    (hr : Running s' c pid) : Running s c pid := by
  obtain ⟨call', hcall', hpid, hdone⟩ := hr
  obtain ⟨call, hcall, hp, -, hph⟩ := h.find hcall'
  exact ⟨call, hcall, by rw [hp, hpid], by rw [hph, hdone]⟩

theorem Linked.same {s s' : State H X} (h : Linked s) (hsame : SameCalls s s')
    (hinbox : ∀ p ∈ s'.inbox, ∀ c, Running s c p.replyTo → p.call = some c) : Linked s' where
  number := by
    intro c hc
    have hnone := hsame.calls c
    rw [h.number c (hsame.built ▸ hc), Option.map_none, Option.map_eq_none_iff] at hnone
    exact hnone
  bound := by
    intro pid c hname
    obtain ⟨call, hcall, hpid, hbound⟩ := h.bound pid c (hsame.name ▸ hname)
    obtain ⟨call', hcall', hp, -, hph⟩ := hsame.symm.find hcall
    exact ⟨call', hcall', by rw [hp, hpid], by rw [hph, hbound]⟩
  alone := fun pid c c' hc hc' => h.alone pid c c' (hsame.running hc) (hsame.running hc')
  waiting := fun p hp c hc => hinbox p hp c (hsame.running hc)

theorem RunEffect.running_of {s s' : State H X} {c : Nat} {call call' : Call}
    (e : RunEffect s c call s' call') (hcall : s.calls c = some call) {c' pid : Nat}
    (hr : Running s' c' pid) : Running s c' pid := by
  obtain ⟨call'', hcall'', hpid, hdone⟩ := hr
  simp only [e.calls, Option.mem_def, Function.update_apply] at hcall''
  split at hcall''
  · rename_i hc
    obtain rfl := Option.some.inj hcall''
    exact ⟨call, hc ▸ hcall, by rw [← e.pid, hpid], e.running⟩
  · exact ⟨call'', hcall'', hpid, hdone⟩

theorem RunEffect.linked {s s' : State H X} {c : Nat} {call call' : Call}
    (e : RunEffect s c call s' call') (hcall : s.calls c = some call) (h : Linked s) :
    Linked s' where
  number := by
    intro c' hc'
    have hnone := h.number c' (e.built ▸ hc')
    have hne : c' ≠ c := by
      rintro rfl
      rw [hnone] at hcall
      cases hcall
    rw [e.calls, Function.update_of_ne hne, hnone]
  bound := by
    intro pid c' hname
    rcases e.names pid c' hname with ⟨hold, hkeep⟩ | ⟨hpid, rfl, hbound⟩
    · obtain ⟨call₀, hcall₀, hpid, hbound⟩ := h.bound pid c' hold
      by_cases hc : c' = c
      · subst hc
        obtain rfl := Option.some.inj (hcall.symm.trans hcall₀)
        refine ⟨call', by rw [e.calls, Function.update_self], e.pid.trans hpid, ?_⟩
        exact (hkeep hbound).resolve_right fun hne => hne hpid.symm
      · exact ⟨call₀, by rw [e.calls, Function.update_of_ne hc, hcall₀], hpid, hbound⟩
    · exact ⟨call', by rw [e.calls, Function.update_self], e.pid.trans hpid.symm, hbound⟩
  alone := fun pid c₁ c₂ h₁ h₂ => h.alone pid c₁ c₂ (e.running_of hcall h₁) (e.running_of hcall h₂)
  waiting := by
    intro p hp c' hc'
    have hc' := e.running_of hcall hc'
    rcases e.inbox with hinbox | ⟨hinbox, -, -⟩ <;> rw [hinbox] at hp
    · exact h.waiting p hp c' hc'
    · rcases List.mem_append.mp hp with hp | hp
      · exact h.waiting p hp c' hc'
      · obtain rfl := List.mem_singleton.mp hp
        rw [h.alone call.pid c c' ⟨call, hcall, rfl, e.running⟩ hc']

theorem serve_effect {code : HandlerCode H X} {s s' : State H X} {clock : Clock} {sendOk : Bool}
    (hs : serve code s clock sendOk = some s') :
    ∃ p, s.inbox = p :: s'.inbox ∧ SameCalls s s' ∧
      s'.registry = (handlerDispatch code clock s.registry p.req .zero).registry ∧
      s'.served = s.served ++
        p.call.toList.map fun c =>
          (c, (handlerDispatch code clock s.registry p.req .zero).resp) := by
  unfold serve at hs
  split at hs
  · simp at hs
  · rename_i p inbox hinbox
    refine ⟨p, ?_⟩
    generalize handlerDispatch code clock s.registry p.req .zero = o at hs ⊢
    obtain rfl := Option.some.inj hs
    cases sendOk with
    | false => exact ⟨hinbox, ⟨rfl, rfl, fun _ => rfl⟩, rfl, rfl⟩
    | true =>
      let s₁ : State H X := { s with
        inbox := inbox
        registry := o.registry
        served := s.served ++ p.call.toList.map fun c => (c, o.resp) }
      obtain ⟨hname, hbuilt, hcalls⟩ := deliver_same s₁ p.replyTo ⟨mgmtResponseSize, o.resp⟩
      obtain ⟨hin, hserved, hregistry⟩ := deliver_records s₁ p.replyTo ⟨mgmtResponseSize, o.resp⟩
      refine ⟨?_, ⟨hname, hbuilt, hcalls⟩, hregistry, hserved⟩
      rw [hinbox]
      exact congrArg (p :: ·) hin.symm

/-- The state in which `mgmt_send_command` is entered with a new request. -/
def State.enter (s : State H X) (pid : Nat) (req : MgmtCommandRequest) : State H X :=
  { s with built := s.built ++ [req] }.setCall s.built.length ⟨pid, req, .socket, []⟩

theorem call_linked {s : State H X} (h : Linked s) {pid : Nat} {req : MgmtCommandRequest}
    (halone : ∀ c < s.built.length, ¬ Running s c pid) (hname : ∀ p ∈ s.inbox, p.replyTo ≠ pid) :
    Linked (s.enter pid req) := by
  have hfree : s.calls s.built.length = none := h.number _ le_rfl
  -- another call that runs is an old one
  have hold : ∀ {c pid'}, Running (s.enter pid req) c pid' →
      (c = s.built.length ∧ pid' = pid) ∨ (c < s.built.length ∧ Running s c pid') := by
    rintro c pid' ⟨call, hcall, hpid, hdone⟩
    simp only [State.enter, State.setCall, Option.mem_def, Function.update_apply] at hcall
    split at hcall
    · rename_i hc
      obtain rfl := Option.some.inj hcall
      exact .inl ⟨hc, hpid.symm⟩
    · refine .inr ⟨?_, call, hcall, hpid, hdone⟩
      by_contra hge
      rw [h.number c (by omega)] at hcall
      cases hcall
  refine ⟨?_, ?_, ?_, ?_⟩
  · intro c hc
    have hc : s.built.length + 1 ≤ c := by simpa [State.enter, State.setCall] using hc
    simp only [State.enter, State.setCall, Function.update_of_ne (show c ≠ s.built.length by omega)]
    exact h.number c (by omega)
  · intro pid' c hc
    obtain ⟨call, hcall, hpid, hbound⟩ := h.bound pid' c hc
    have hne : c ≠ s.built.length := by
      rintro rfl
      rw [hfree] at hcall
      cases hcall
    exact ⟨call, by simp only [State.enter, State.setCall, Function.update_of_ne hne, hcall],
      hpid, hbound⟩
  · intro pid' c c' hc hc'
    rcases hold hc with ⟨rfl, rfl⟩ | ⟨hlt, hr⟩ <;> rcases hold hc' with ⟨rfl, hp⟩ | ⟨hlt', hr'⟩
    · rfl
    · exact absurd hr' (halone c' hlt')
    · exact absurd (hp ▸ hr) (halone c hlt)
    · exact h.alone pid' c c' hr hr'
  · intro p hp c hc
    rcases hold hc with ⟨-, hpid⟩ | ⟨-, hr⟩
    · exact absurd hpid (hname p hp)
    · exact h.waiting p hp c hr

theorem step_linked {code : HandlerCode H X} (s : State H X) (a : Action) (s' : State H X)
    (h : Linked s) (hown : OwnNames s a) (hs : step code s a = some s') : Linked s' := by
  cases a with
  | call pid clock cmdType module payload =>
    obtain rfl := Option.some.inj hs
    exact call_linked h hown.1 hown.2
  | run c ok =>
    obtain ⟨call, hcall, hs⟩ := Option.bind_eq_some_iff.mp hs
    obtain ⟨call', e⟩ := run_effect hs
    exact e.linked hcall h
  | serve clock sendOk =>
    obtain ⟨p, hinbox, hsame, -⟩ := serve_effect hs
    refine h.same hsame fun q hq => h.waiting q ?_
    rw [hinbox]
    exact List.mem_cons_of_mem p hq
  | foreignRequest pid req =>
    obtain rfl := Option.some.inj hs
    refine h.same ⟨rfl, rfl, fun _ => rfl⟩ fun q hq c hc => ?_
    rcases List.mem_append.mp hq with hq | hq
    · exact h.waiting q hq c hc
    · obtain rfl := List.mem_singleton.mp hq
      refine absurd hc (hown c ?_)
      by_contra hge
      obtain ⟨call, hcall, -⟩ := hc
      rw [h.number c (by omega)] at hcall
      cases hcall
  | foreignSend pid d =>
    obtain rfl := Option.some.inj hs
    refine h.same (deliver_same s pid d) fun q hq => h.waiting q ?_
    rwa [(deliver_records s pid d).1] at hq

theorem own_undisturbed {s : State H X} (h : Linked s) {a : Action} (hown : OwnNames s a) :
    Undisturbed s a := by
  cases a with
  | serve clock sendOk =>
    intro p hp c hc
    obtain ⟨call, hcall, hpid, hbound⟩ := h.bound p.replyTo c hc
    refine h.waiting p (List.mem_of_mem_head? hp) c ⟨call, hcall, hpid, ?_⟩
    cases hph : call.phase <;> simp_all [Phase.bound, Phase.isDone]
  | foreignSend pid d => exact hown
  | _ => trivial

/-! ## What the server has answered -/

variable {code : HandlerCode H X} {r₀ : EventHandlerRegistry H X}

/-- A call that has sent its request stays a call with that request. -/
def Kept (s s' : State H X) : Prop :=
  ∀ c call, s.calls c = some call → call.phase.pastSend = true →
    ∃ call', s'.calls c = some call' ∧ call'.req = call.req ∧ call'.phase.pastSend = true

/-- The numbers of the calls whose request waits or has been answered. -/
def State.asked (s : State H X) : List Nat :=
  s.inbox.filterMap Pending.call ++ s.served.map Prod.fst

def SameHandlers (r r₀ : EventHandlerRegistry H X) : Prop :=
  r.entries.live.map EventHandlerEntry.binding = r₀.entries.live.map EventHandlerEntry.binding

structure Accounted (code : HandlerCode H X) (r₀ : EventHandlerRegistry H X) (s : State H X) :
    Prop where
  handlers : SameHandlers s.registry r₀
  waits : ∀ p ∈ s.inbox, ∀ c, p.call = some c →
    ∃ call, s.calls c = some call ∧ call.req = p.req ∧ call.phase.pastSend = true
  answered : ∀ c resp, (c, resp) ∈ s.served → ∃ call, s.calls c = some call ∧
    call.phase.pastSend = true ∧
    ∃ clock registry, SameHandlers registry r₀ ∧
      resp = (handlerDispatch code clock registry call.req .zero).resp
  once : s.asked.Nodup

theorem SameCalls.kept {s s' : State H X} (h : SameCalls s s') : Kept s s' := by
  intro c call hcall hpast
  obtain ⟨call', hcall', -, hreq, hph⟩ := h.symm.find hcall
  exact ⟨call', hcall', hreq, by rw [hph, hpast]⟩

theorem RunEffect.kept {s s' : State H X} {c : Nat} {call call' : Call}
    (e : RunEffect s c call s' call') (hcall : s.calls c = some call) : Kept s s' := by
  intro c₁ call₁ hcall₁ hpast
  rw [e.calls]
  by_cases hc : c₁ = c
  · subst hc
    obtain rfl := Option.some.inj (hcall.symm.trans hcall₁)
    exact ⟨call', Function.update_self .., e.req, e.pastSend hpast⟩
  · exact ⟨call₁, by rw [Function.update_of_ne hc, hcall₁], rfl, hpast⟩

theorem Accounted.mem_asked {s : State H X} (h : Accounted code r₀ s) {c : Nat} (hc : c ∈ s.asked) :
    ∃ call, s.calls c = some call ∧ call.phase.pastSend = true := by
  rcases List.mem_append.mp hc with hc | hc
  · obtain ⟨p, hp, hpc⟩ := List.mem_filterMap.mp hc
    obtain ⟨call, hcall, -, hpast⟩ := h.waits p hp c hpc
    exact ⟨call, hcall, hpast⟩
  · obtain ⟨⟨c', resp⟩, hmem, rfl⟩ := List.mem_map.mp hc
    obtain ⟨call, hcall, hpast, -⟩ := h.answered c' resp hmem
    exact ⟨call, hcall, hpast⟩

theorem Accounted.kept {s s' : State H X} (h : Accounted code r₀ s) (hk : Kept s s')
    (hinbox : s'.inbox = s.inbox) (hserved : s'.served = s.served)
    (hregistry : s'.registry = s.registry) : Accounted code r₀ s' where
  handlers := hregistry ▸ h.handlers
  waits := by
    intro p hp c hc
    obtain ⟨call, hcall, hreq, hpast⟩ := h.waits p (hinbox ▸ hp) c hc
    obtain ⟨call', hcall', hreq', hpast'⟩ := hk c call hcall hpast
    exact ⟨call', hcall', hreq'.trans hreq, hpast'⟩
  answered := by
    intro c resp hmem
    obtain ⟨call, hcall, hpast, clock, registry, hsame, hresp⟩ := h.answered c resp (hserved ▸ hmem)
    obtain ⟨call', hcall', hreq', hpast'⟩ := hk c call hcall hpast
    exact ⟨call', hcall', hpast', clock, registry, hsame, by rw [hreq', hresp]⟩
  once := by
    rw [State.asked, hinbox, hserved]
    exact h.once

theorem run_accounted {s s' : State H X} {c : Nat} {call call' : Call}
    (e : RunEffect s c call s' call') (hcall : s.calls c = some call) (h : Accounted code r₀ s) :
    Accounted code r₀ s' := by
  rcases e.inbox with hinbox | ⟨hinbox, hnot, hpast'⟩
  · exact h.kept (e.kept hcall) hinbox e.served e.registry
  · -- the request of a call that had sent none
    have hold : Accounted code r₀ { s' with inbox := s.inbox } :=
      h.kept (e.kept hcall) rfl e.served e.registry
    have hfresh : c ∉ s.asked := by
      intro hc
      obtain ⟨call₀, hcall₀, hpast⟩ := h.mem_asked hc
      obtain rfl := Option.some.inj (hcall.symm.trans hcall₀)
      rw [hnot] at hpast
      cases hpast
    refine ⟨hold.handlers, ?_, hold.answered, ?_⟩
    · intro p hp c' hc'
      rw [hinbox] at hp
      rcases List.mem_append.mp hp with hp | hp
      · exact hold.waits p hp c' hc'
      · obtain rfl := List.mem_singleton.mp hp
        obtain rfl := Option.some.inj hc'
        exact ⟨call', by rw [e.calls, Function.update_self], e.req, hpast'⟩
    · have hperm : s'.asked.Perm (c :: s.asked) := by
        rw [State.asked, State.asked, hinbox, e.served, List.filterMap_append, List.append_assoc]
        exact List.perm_middle
      rw [hperm.nodup_iff]
      exact List.nodup_cons.mpr ⟨hfresh, h.once⟩

theorem serve_accounted {s s' : State H X} {clock : Clock} {sendOk : Bool}
    (hs : serve code s clock sendOk = some s') (h : Accounted code r₀ s) :
    Accounted code r₀ s' := by
  obtain ⟨p, hinbox, hsame, hregistry, hserved⟩ := serve_effect hs
  have hk := hsame.kept
  have hwaits := h.waits p (by rw [hinbox]; exact List.mem_cons_self)
  refine ⟨?_, ?_, ?_, ?_⟩
  · rw [SameHandlers, hregistry, dispatch_bindings]
    exact h.handlers
  · intro q hq c hc
    obtain ⟨call, hcall, hreq, hpast⟩ :=
      h.waits q (by rw [hinbox]; exact List.mem_cons_of_mem p hq) c hc
    obtain ⟨call', hcall', hreq', hpast'⟩ := hk c call hcall hpast
    exact ⟨call', hcall', hreq'.trans hreq, hpast'⟩
  · intro c resp hmem
    rw [hserved, List.mem_append] at hmem
    rcases hmem with hmem | hmem
    · obtain ⟨call, hcall, hpast, clock, registry, hsame, hresp⟩ := h.answered c resp hmem
      obtain ⟨call', hcall', hreq', hpast'⟩ := hk c call hcall hpast
      exact ⟨call', hcall', hpast', clock, registry, hsame, by rw [hreq', hresp]⟩
    · obtain ⟨c', hc', heq⟩ := List.mem_map.mp hmem
      simp only [Prod.mk.injEq] at heq
      obtain ⟨rfl, rfl⟩ := heq
      obtain ⟨call, hcall, hreq, hpast⟩ := hwaits c' (Option.mem_toList.mp hc')
      obtain ⟨call', hcall', hreq', hpast'⟩ := hk c' call hcall hpast
      exact ⟨call', hcall', hpast', clock, s.registry, h.handlers, by rw [hreq', hreq]⟩
  · have hperm : s'.asked.Perm s.asked := by
      rw [State.asked, State.asked, hserved, hinbox, List.map_append, ← List.append_assoc]
      cases hc : p.call with
      | none =>
        rw [List.filterMap_cons_none hc]
        simp
      | some c =>
        rw [List.filterMap_cons_some hc]
        exact List.perm_append_singleton c _
    rw [hperm.nodup_iff]
    exact h.once

theorem step_accounted {s s' : State H X} {a : Action} (hnumber : s.calls s.built.length = none)
    (h : Accounted code r₀ s) (hs : step code s a = some s') : Accounted code r₀ s' := by
  cases a with
  | call pid clock cmdType module payload =>
    obtain rfl := Option.some.inj hs
    refine h.kept ?_ rfl rfl rfl
    intro c call hcall hpast
    have hne : c ≠ s.built.length := by
      rintro rfl
      rw [hnumber] at hcall
      cases hcall
    exact ⟨call, by simp only [State.setCall, Function.update_of_ne hne]; exact hcall, rfl, hpast⟩
  | run c ok =>
    obtain ⟨call, hcall, hs⟩ := Option.bind_eq_some_iff.mp hs
    obtain ⟨call', e⟩ := run_effect hs
    exact run_accounted e hcall h
  | serve clock sendOk => exact serve_accounted hs h
  | foreignRequest pid req =>
    obtain rfl := Option.some.inj hs
    refine ⟨h.handlers, ?_, h.answered, ?_⟩
    · intro p hp c hc
      rcases List.mem_append.mp hp with hp | hp
      · exact h.waits p hp c hc
      · obtain rfl := List.mem_singleton.mp hp
        cases hc
    · simpa [State.asked, List.filterMap_append] using h.once
  | foreignSend pid d =>
    obtain rfl := Option.some.inj hs
    obtain ⟨hinbox, hserved, hregistry⟩ := deliver_records s pid d
    exact h.kept (deliver_same s pid d).kept hinbox hserved hregistry

/-! ## Runs -/

structure Sound (code : HandlerCode H X) (r₀ : EventHandlerRegistry H X) (s : State H X) :
    Prop where
  linked : Linked s
  accounted : Accounted code r₀ s
  good : Inv s
  returned : ∀ c call resp, s.calls c = some call → call.phase = .done (some resp) →
    (c, resp) ∈ s.served

theorem step_returned {s s' : State H X} {a : Action} (h : Sound code r₀ s)
    (hs : step code s a = some s') {c : Nat} {call : Call} {resp : MgmtCommandResponse}
    (hcall : s'.calls c = some call) (hdone : call.phase = .done (some resp)) :
    (c, resp) ∈ s'.served := by
  cases a with
  | call pid clock cmdType module payload =>
    obtain rfl := Option.some.inj hs
    simp only [State.setCall, Function.update_apply] at hcall
    split at hcall
    · obtain rfl := Option.some.inj hcall
      cases hdone
    · exact h.returned c call resp hcall hdone
  | run c₁ ok =>
    obtain ⟨call₁, hcall₁, hs⟩ := Option.bind_eq_some_iff.mp hs
    obtain ⟨call₂, e⟩ := run_effect hs
    rw [e.calls, Function.update_apply] at hcall
    rw [e.served]
    split at hcall
    · rename_i hc
      obtain rfl := Option.some.inj hcall
      exact (h.good c call₁ (hc ▸ hcall₁)).result resp (e.returned resp hdone)
    · exact h.returned c call resp hcall hdone
  | serve clock sendOk =>
    obtain ⟨p, -, hsame, -, hserved⟩ := serve_effect hs
    obtain ⟨call₀, hcall₀, -, -, hph⟩ := hsame.find hcall
    rw [hserved]
    exact List.mem_append_left _ (h.returned c call₀ resp hcall₀ (hph.trans hdone))
  | foreignRequest pid req =>
    obtain rfl := Option.some.inj hs
    exact h.returned c call resp hcall hdone
  | foreignSend pid d =>
    obtain rfl := Option.some.inj hs
    obtain ⟨call₀, hcall₀, -, -, hph⟩ := (deliver_same s pid d).find hcall
    rw [(deliver_records s pid d).2.1]
    exact h.returned c call₀ resp hcall₀ (hph.trans hdone)

theorem step_sound (s : State H X) (a : Action) (s' : State H X) (h : Sound code r₀ s)
    (hown : OwnNames s a) (hs : step code s a = some s') : Sound code r₀ s' where
  linked := step_linked s a s' h.linked hown hs
  accounted := step_accounted (h.linked.number _ le_rfl) h.accounted hs
  good := step_inv code s a s' h.good (own_undisturbed h.linked hown) hs
  returned := fun _ _ _ => step_returned h hs

theorem init_sound (code : HandlerCode H X) (r : EventHandlerRegistry H X) :
    Sound code r (init r) where
  linked := ⟨fun _ _ => rfl, by simp [init], by simp [init, Running], by simp [init]⟩
  accounted := ⟨rfl, by simp [init], by simp [init], by simp [init, State.asked]⟩
  good := by simp [Inv, init]
  returned := by simp [init]

/-- A call that has returned 0 has the response that the server made to its request, and there is no
other. -/
theorem calls_answered (code : HandlerCode H X) (r : EventHandlerRegistry H X) (as : List Action)
    (s : State H X) (hown : Along (step code) OwnNames (init r) as)
    (hrun : exec (step code) (init r) as = some s) {c : Nat} {call : Call}
    {resp : MgmtCommandResponse} (hcall : s.calls c = some call)
    (hdone : call.phase = .done (some resp)) :
    (∃ clock registry, SameHandlers registry r ∧
      resp = (handlerDispatch code clock registry call.req .zero).resp) ∧
      ∀ resp', (c, resp') ∈ s.served ↔ resp' = resp := by
  have h : Sound code r s := invariant step_sound (init_sound code r) hown hrun
  have hmem := h.returned c call resp hcall hdone
  obtain ⟨call', hcall', -, hresp⟩ := h.accounted.answered c resp hmem
  obtain rfl := Option.some.inj (hcall.symm.trans hcall')
  refine ⟨hresp, fun resp' => ⟨fun hmem' => ?_, fun heq => heq ▸ hmem⟩⟩
  have hnodup : (s.served.map Prod.fst).Nodup := (List.nodup_append.mp h.accounted.once).2.1
  exact congrArg Prod.snd (List.inj_on_of_nodup_map hnodup hmem' hmem rfl)

instance (s : State H X) : DecidablePred (OwnNames s)
  | .call .. => inferInstanceAs (Decidable (_ ∧ _))
  | .foreignRequest pid _ => inferInstanceAs (Decidable (∀ c < s.built.length, ¬ Running s c pid))
  | .foreignSend pid d =>
    inferInstanceAs (Decidable (d.size < mgmtResponseSize ∨ s.name pid = none))
  | .run _ _ | .serve _ _ => .isTrue trivial

/-- Process 2 asks between the request of process 1 and its answer, and is answered in turn. -/
def twoClients : List Action :=
  [.call 1 ⟨⟨5, 0⟩, 5⟩ 0 (some router) [], .run 0 true, .run 0 true, .run 0 true, .run 0 true,
    .call 2 ⟨⟨5, 1⟩, 5⟩ 1 (some router) [], .run 1 true, .run 1 true, .run 1 true, .run 1 true,
    .serve ⟨⟨6, 0⟩, 6⟩ true, .serve ⟨⟨7, 0⟩, 7⟩ true, .run 1 true, .run 1 true, .run 1 true,
    .run 0 true, .run 0 true, .run 0 true]

theorem twoClients_answered :
    ∃ s call resp, exec (step (programCode fun _ => 0)) (init routerRegistry) twoClients = some s ∧
      s.calls 1 = some call ∧ call.phase = .done (some resp) ∧
      (∃ clock registry, SameHandlers registry routerRegistry ∧
        resp = (handlerDispatch (programCode fun _ => 0) clock registry call.req .zero).resp) ∧
        ∀ resp', (1, resp') ∈ s.served ↔ resp' = resp :=
  ⟨_, _, _, rfl, rfl, rfl,
    calls_answered (programCode fun _ => 0) routerRegistry twoClients _ (by decide) rfl rfl rfl⟩

end StudyC.Ctl
