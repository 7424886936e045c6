import StudyC.Lib.Mailboxes

/-!
# The management thread

`mgmt_worker` with `mgmt_socket_process_one`, step by step. Router and Viewer run it as a thread of
its own, and differ in what their `SHUTDOWN` handler does. The points of that handler are a
parameter.

The reply goes out with a `sendto` that waits while the receive queue of the client's socket is
full.
-/

namespace StudyC.Mgmt.Worker

inductive Request where
  | shutdown
  /-- Another command that a handler answers. -/
  | handled
  /-- A request that dispatch rejects. -/
  | refused
  deriving DecidableEq

/-- The address of a client's socket. -/
abbrev Client := Nat

/-- How the next system call ends. -/
inductive Outcome where
  | ok
  | fail
  /-- Nothing was there to receive for a second. -/
  | timeout
  deriving DecidableEq

/-- Where the thread is; `handler` is inside the `SHUTDOWN` handler. -/
inductive Phase (σ : Type) where
  | notCreated
  | create
  | test
  | recv
  | lookup (r : Request)
  | handler (h : σ)
  | account (r : Request)
  | reply (r : Request)
  | destroy
  | ended
  deriving DecidableEq

structure Thread (σ : Type) where
  phase : Phase σ
  inbox : List (Client × Request)
  /-- `client_addr`, of the request that is being answered. -/
  client : Client
  /-- The sockets of the clients, with the replies that wait there. -/
  clients : Mailboxes.State Client
  /-- The management socket is open. -/
  socket : Bool
  /-- A `SHUTDOWN` request was received, and no reply to it has been passed to `sendto`. -/
  owed : Bool

variable {σ : Type}

def Thread.init (clients : Mailboxes.State Client) : Thread σ :=
  ⟨.notCreated, [], 0, clients, false, false⟩

def Thread.goto (t : Thread σ) (ph : Phase σ) : Thread σ := { t with phase := ph }

def Thread.receive (t : Thread σ) (c : Client) (r : Request) : Thread σ :=
  { t with inbox := t.inbox ++ [(c, r)] }

/-- A client reads a reply, or closes its socket. -/
def Thread.clientStep (t : Thread σ) (a : Mailboxes.Action Client) : Option (Thread σ) :=
  (Mailboxes.step t.clients a).map fun clients => { t with clients := clients }

/-- One step outside the `SHUTDOWN` handler, which is entered at `enter`. -/
def Thread.step (running : Bool) (enter : σ) (t : Thread σ) (res : Outcome) : Option (Thread σ) :=
  match t.phase with
  | .notCreated | .ended | .handler _ => none
  | .create => match res with
    | .ok => some { t with phase := .test, socket := true }
    | .fail => some (t.goto .ended)
    | .timeout => none
  | .test => some (t.goto (if running then .recv else .destroy))
  | .recv => match res, t.inbox with
    | .fail, _ | .timeout, [] => some (t.goto .test)
    | .ok, (c, r) :: inbox =>
      some { t with
        phase := .lookup r, client := c, inbox := inbox, owed := decide (r = .shutdown) }
    | .timeout, _ :: _ | .ok, [] => none
  | .lookup .refused => some (t.goto (.reply .refused))
  | .lookup .handled => some (t.goto (.account .handled))
  | .lookup .shutdown => some (t.goto (.handler enter))
  | .account r => some (t.goto (.reply r))
  | .reply _ => match res with
    -- a client that has gone refuses the reply, and the thread goes on as after one that was queued
    | .ok =>
      if t.clients.accepts t.client then
        some { t with phase := .test, owed := false, clients := t.clients.deliver t.client }
      else none
    | .fail => some { t with phase := .test, owed := false }
    | .timeout => none
  | .destroy => some { t with phase := .ended, socket := false }

/-- Between the first and the last step of `handler_dispatch`. -/
def Phase.dispatching : Phase σ → Bool
  | .lookup _ | .handler _ | .account _ => true
  | _ => false

/-- The request that is being answered. -/
def Phase.serving : Phase σ → Option Request
  | .lookup r | .account r | .reply r => some r
  | .handler _ => some .shutdown
  | _ => none

/-- There is no thread, or it has returned. -/
def Phase.gone : Phase σ → Bool
  | .notCreated | .ended => true
  | _ => false

theorem gone_iff_ended {ph : Phase σ} (h : ph ≠ .notCreated) : ph.gone = true ↔ ph = .ended := by
  cases ph <;> simp [Phase.gone] at h ⊢

theorem step_runs {running : Bool} {enter : σ} {t t' : Thread σ} {res : Outcome}
    (hs : t.step running enter res = some t') : t.phase.gone = false ∧ t'.phase ≠ .notCreated := by
  unfold Thread.step at hs
  repeat' split at hs
  all_goals first
    | (simp at hs; done)
    | (obtain rfl := Option.some.inj hs; constructor <;> simp [*, Phase.gone, Thread.goto])

/-- The socket is open while the thread is in its loop, and a reply is owed from the receive of a
`SHUTDOWN` to its `sendto`. -/
structure Thread.WellFormed (t : Thread σ) : Prop where
  owed : t.owed = decide (t.phase.serving = some .shutdown)
  socket : t.phase.serving ≠ none → t.socket = true
  loop : t.phase = .test ∨ t.phase = .recv → t.socket = true

theorem init_wellFormed (clients : Mailboxes.State Client) :
    (Thread.init clients : Thread σ).WellFormed :=
  ⟨rfl, by simp [Thread.init, Phase.serving], by simp [Thread.init]⟩

theorem step_wellFormed {running : Bool} {enter : σ} {t t' : Thread σ} {res : Outcome}
    (h : t.WellFormed) (hs : t.step running enter res = some t') : t'.WellFormed := by
  obtain ⟨phase, inbox, client, clients, socket, owed⟩ := t
  obtain ⟨howed, hsocket, hloop⟩ := h
  cases phase with
  | notCreated | ended | handler h => simp [Thread.step] at hs
  | create =>
    cases res with
    | ok =>
      obtain rfl := Option.some.inj hs
      exact ⟨howed, fun _ => rfl, fun _ => rfl⟩
    | fail =>
      obtain rfl := Option.some.inj hs
      exact ⟨howed, by simp [Thread.goto, Phase.serving], by simp [Thread.goto]⟩
    | timeout => simp [Thread.step] at hs
  | test =>
    obtain rfl := Option.some.inj hs
    have hopen : socket = true := hloop (Or.inl rfl)
    cases running <;> exact ⟨howed, fun _ => hopen, fun _ => hopen⟩
  | recv =>
    have hopen : socket = true := hloop (Or.inr rfl)
    simp only [Thread.step] at hs
    split at hs
    · obtain rfl := Option.some.inj hs
      exact ⟨howed, fun _ => hopen, fun _ => hopen⟩
    · obtain rfl := Option.some.inj hs
      exact ⟨howed, fun _ => hopen, fun _ => hopen⟩
    · obtain rfl := Option.some.inj hs
      exact ⟨by simp [Phase.serving], fun _ => hopen, fun _ => hopen⟩
    · simp at hs
    · simp at hs
  | lookup r =>
    have hopen : socket = true := hsocket (by simp [Phase.serving])
    cases r <;> (obtain rfl := Option.some.inj hs; exact ⟨howed, fun _ => hopen, fun _ => hopen⟩)
  | account r =>
    have hopen : socket = true := hsocket (by simp [Phase.serving])
    obtain rfl := Option.some.inj hs
    exact ⟨howed, fun _ => hopen, fun _ => hopen⟩
  | reply r =>
    have hopen : socket = true := hsocket (by simp [Phase.serving])
    simp only [Thread.step] at hs
    repeat' split at hs
    all_goals first
      | (simp at hs; done)
      | (obtain rfl := Option.some.inj hs; exact ⟨rfl, fun _ => hopen, fun _ => hopen⟩)
  | destroy =>
    obtain rfl := Option.some.inj hs
    exact ⟨howed, by simp [Phase.serving], by simp⟩

theorem goto_wellFormed {t : Thread σ} (h : t.WellFormed) {ph : Phase σ} {p : σ}
    (hph : t.phase = .handler p) (hserving : ph.serving = some .shutdown) :
    (t.goto ph).WellFormed := by
  obtain ⟨howed, hsocket, -⟩ := h
  have hopen : t.socket = true := hsocket (by simp [hph, Phase.serving])
  rw [hph] at howed
  refine ⟨?_, fun _ => hopen, fun _ => hopen⟩
  rw [show (t.goto ph).phase = ph from rfl, hserving]
  exact howed

theorem create_wellFormed {t : Thread σ} (h : t.WellFormed) (hph : t.phase = .notCreated) :
    (t.goto .create).WellFormed := by
  refine ⟨?_, by simp [Thread.goto, Phase.serving], by simp [Thread.goto]⟩
  simpa [hph, Phase.serving, Thread.goto] using h.owed

theorem receive_wellFormed {t : Thread σ} (h : t.WellFormed) (c : Client) (r : Request) :
    (t.receive c r).WellFormed :=
  ⟨h.owed, h.socket, h.loop⟩

theorem clientStep_phase {t t' : Thread σ} {a : Mailboxes.Action Client}
    (hs : t.clientStep a = some t') : t'.phase = t.phase := by
  obtain ⟨clients, -, rfl⟩ := Option.map_eq_some_iff.mp hs
  rfl

theorem clientStep_wellFormed {t t' : Thread σ} {a : Mailboxes.Action Client} (h : t.WellFormed)
    (hs : t.clientStep a = some t') : t'.WellFormed := by
  obtain ⟨clients, -, rfl⟩ := Option.map_eq_some_iff.mp hs
  exact ⟨h.owed, h.socket, h.loop⟩

/-- A reply that is owed finds the socket open and `main` not yet returned, and the registry is not
destroyed during a dispatch. -/
structure Thread.Orderly (t : Thread σ) (destroying returned : Prop) : Prop where
  reply : t.owed = true → t.socket = true ∧ ¬ returned
  dispatch : destroying → t.phase.dispatching = false

theorem Thread.WellFormed.orderly {t : Thread σ} (h : t.WellFormed) {destroying returned : Prop}
    (hdestroy : destroying → t.phase.gone = true) (hreturn : returned → t.phase.gone = true) :
    t.Orderly destroying returned := by
  refine ⟨?_, ?_⟩
  · intro howed
    rw [h.owed, decide_eq_true_eq] at howed
    refine ⟨h.socket (by simp [howed]), ?_⟩
    intro hret
    have hgone := hreturn hret
    cases hp : t.phase <;> simp [hp, Phase.gone, Phase.serving] at hgone howed
  · intro hdes
    have hgone := hdestroy hdes
    cases hp : t.phase <;> simp [hp, Phase.gone] at hgone <;> rfl

/-! ## The way to its end -/

/-- The steps that the thread has left once the flag is down. `left` counts those of the handler. -/
def Phase.rank (left : σ → Nat) (enter : σ) : Phase σ → Nat
  | .notCreated | .ended => 0
  | .destroy => 1
  | .test => 2
  | .reply _ => 3
  | .account _ => 4
  | .handler h => 5 + left h
  | .lookup _ => 6 + left enter
  | .recv => 7 + left enter
  | .create => 8 + left enter

theorem step_rank (left : σ → Nat) {enter : σ} {t t' : Thread σ} {res : Outcome}
    (hs : t.step false enter res = some t') :
    t'.phase.rank left enter < t.phase.rank left enter := by
  unfold Thread.step at hs
  cases hp : t.phase with
  | notCreated | ended | handler h => simp [hp] at hs
  | create | recv | reply r =>
    simp only [hp] at hs
    repeat' split at hs
    all_goals first
      | (simp at hs; done)
      | (obtain rfl := Option.some.inj hs; simp only [Phase.rank, Thread.goto]; omega)
  | lookup r =>
    cases r <;> simp only [hp] at hs <;> obtain rfl := Option.some.inj hs
    all_goals
      simp only [Phase.rank, Thread.goto]
      omega
  | test | account r | destroy =>
    simp only [hp] at hs
    obtain rfl := Option.some.inj hs
    simp [Phase.rank, Thread.goto]

/-! ## Replies that wait -/

/-- What keeps the reply that is being sent from going out. -/
def Thread.excess (t : Thread σ) : Nat :=
  match t.phase with
  | .reply _ => t.clients.excess t.client
  | _ => 0

/-- It is the thread that goes on, and not `sendto` that fails. -/
def Thread.moves (t : Thread σ) (res : Outcome) : Bool :=
  match t.phase, res with
  | .reply _, .fail => false
  | _, _ => true

theorem exists_step (running : Bool) (enter : σ) {t : Thread σ} (hrun : t.phase.gone = false)
    (hh : ∀ h, t.phase ≠ .handler h) (hsend : t.excess = 0) :
    ∃ res, t.moves res = true ∧ (t.step running enter res).isSome = true := by
  unfold Thread.step Thread.moves
  unfold Thread.excess at hsend
  cases hp : t.phase with
  | notCreated | ended => simp [hp, Phase.gone] at hrun
  | handler h => exact absurd hp (hh h)
  | lookup r => cases r <;> exact ⟨.fail, rfl, rfl⟩
  | reply r =>
    rw [hp] at hsend
    exact ⟨.ok, rfl, by simp [Mailboxes.State.accepts, hsend]⟩
  | create | test | recv | account r | destroy => exact ⟨.fail, rfl, rfl⟩

theorem exists_clientStep {t : Thread σ} (hsend : 0 < t.excess) :
    0 < t.clients.unread t.client ∧ (t.clientStep (.take t.client)).isSome = true := by
  -- a client that keeps a reply from going out has something to read
  have hfull : 0 < t.clients.excess t.client := by
    unfold Thread.excess at hsend
    split at hsend
    · exact hsend
    · simp at hsend
  obtain ⟨hpos, htake⟩ := Mailboxes.exists_step hfull
  exact ⟨hpos, by rwa [Thread.clientStep, Option.isSome_map]⟩

theorem clientStep_excess {t t' : Thread σ} {a : Mailboxes.Action Client}
    (hs : t.clientStep a = some t') :
    t'.excess ≤ t.excess ∧ (a.owner = t.client → 0 < t.excess → t'.excess < t.excess) := by
  obtain ⟨clients, hclients, rfl⟩ := Option.map_eq_some_iff.mp hs
  unfold Thread.excess
  cases t.phase with
  | reply r => exact Mailboxes.step_excess hclients t.client
  | _ => simp

/-- The client that the thread answers before it tests its flag again. -/
def Thread.answers (t : Thread σ) : Option Client :=
  match t.phase with
  | .recv => t.inbox.head?.map Prod.fst
  | .lookup _ | .handler _ | .account _ | .reply _ => some t.client
  | .notCreated | .create | .test | .destroy | .ended => none

/-- That client has room for the reply, or has gone. -/
def Thread.Answerable (t : Thread σ) : Prop := ∀ c ∈ t.answers, t.clients.accepts c = true

instance (t : Thread σ) : Decidable t.Answerable := inferInstanceAs (Decidable (∀ c ∈ t.answers, _))

theorem step_answerable {running : Bool} {enter : σ} {t t' : Thread σ} {res : Outcome}
    (h : t.Answerable) (hrun : t.phase = .test → running = false)
    (hs : t.step running enter res = some t') : t'.Answerable := by
  -- a thread that leaves its loop at the next test owes no further reply
  unfold Thread.Answerable Thread.answers at h ⊢
  unfold Thread.step at hs
  repeat' split at hs
  all_goals first
    | (simp at hs; done)
    | (obtain rfl := Option.some.inj hs; simp_all [Thread.goto])

/-- As long as no call fails, a thread that has to answer a client whose queue is full never ends.
-/
theorem step_unanswerable {running : Bool} {enter : σ} {t t' : Thread σ} {res : Outcome}
    (h : ¬ t.Answerable) (hres : res ≠ .fail) (hs : t.step running enter res = some t') :
    ¬ t'.Answerable := by
  unfold Thread.Answerable Thread.answers at h ⊢
  unfold Thread.step at hs
  repeat' split at hs
  all_goals first
    | (simp at hs; done)
    | (obtain rfl := Option.some.inj hs; simp_all [Thread.goto])

theorem running_of_unanswerable {t : Thread σ} (h : ¬ t.Answerable) : t.phase.gone = false := by
  unfold Thread.Answerable Thread.answers at h
  cases hp : t.phase <;> simp [hp, Phase.gone] at h ⊢

end StudyC.Mgmt.Worker
