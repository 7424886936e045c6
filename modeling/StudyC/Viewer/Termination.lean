import Mathlib.Data.Prod.Lex
import StudyC.Lib.Fairness
import StudyC.Viewer.Shutdown

/-!
# Viewer comes to an end

`Shutdown` gives one run to the end. Here it is every run that is fair to the threads and to the
clients of the management socket, from the point on at which no `SIGINT` or `SIGTERM` comes and no
wait wakes up by itself. The measure has four parts: the way out of `main`, what can still take the
mutex before it, the way out of the thread that it joins, and the replies that the client of that
thread has to read first.
-/

open Runs

namespace StudyC.Viewer

open Mgmt.Worker

inductive Mover where
  | main
  | sig
  | tcp
  | mgmt
  /-- A client of the management socket that has replies to read. -/
  | client (c : Client)
  deriving DecidableEq

def mover (s : State) : Action → Option Mover
  | .main _ => some .main
  | .sig _ => some .sig
  -- what makes `poll` fail comes from outside
  | .tcp res => if s.tcp = .poll ∧ res ≠ .ok then none else some .tcp
  | .mgmt res => if s.mgmt.moves res then some .mgmt else none
  | .mgmtClient a => if 0 < s.mgmt.clients.unread a.owner then some (.client a.owner) else none
  | .kill _ | .spurious | .connect | .send | .disconnect | .request _ _ => none

/-- No signal that ends the process, and no spurious wake-up. -/
def Calm (_ : State) : Action → Prop
  | .kill .int | .kill .term | .spurious => False
  | _ => True

/-- The thread that `main` waits for, or `main` if it waits for none. If that thread waits in turn
for a client to read, it is that client. -/
def awaited (s : State) : Mover :=
  match s.main with
  | .waitReady => .sig
  | .joinSig => if s.sig = .ended then .main else .sig
  | .joinTcp => if s.tcp = .ended then .main else .tcp
  | .joinMgmt =>
    if s.mgmt.phase.gone then .main else if 0 < s.mgmt.excess then .client s.mgmt.client else .mgmt
  | _ => .main

/-- Who has the mutex goes first. -/
def helpful (s : State) : Mover :=
  if s.main.holds then .main
  else if s.sig.holds then .sig
  else if mgmtHolds s.mgmt.phase then .mgmt
  else awaited s

/-! ## The measure -/

def toMain (s : State) : Nat := mainRank s.signalThreadReady s.main

/-- The signals that the signal thread still has to handle. -/
def signalsLeft (s : State) : Nat := (s.pending .int).toNat + (s.pending .term).toNat

def handlerLeft : HandlerPhase → Nat
  | .store => 4
  | .lock => 3
  | .set => 2
  | .signal => 1
  | .unlock => 0

/-- The management thread handles at most one `SHUTDOWN`, because its handler takes the flag down.
-/
def lockLeft (running : Bool) : Phase HandlerPhase → Nat
  | .handler h => handlerLeft h + 1
  | .recv | .lookup _ => 6
  | .notCreated | .create | .test | .account _ | .reply _ => if running then 6 else 0
  | .destroy | .ended => 0

def toLock (s : State) : Nat :=
  6 * signalsLeft s + sigRank s.sig + lockLeft s.mgmtRunning s.mgmt.phase

def tcpLeft : TcpPhase → Nat
  | .poll => 4
  | .setup | .ready => 3
  | .test => 2
  | .leaving => 1
  | .notCreated | .ended => 0

def toJoin (s : State) : Nat :=
  match s.main with
  | .joinTcp => tcpLeft s.tcp
  | .joinMgmt => s.mgmt.phase.rank handlerLeft .store
  | _ => 0

def toReply (s : State) : Nat :=
  match s.main with
  | .joinMgmt => s.mgmt.excess
  | _ => 0

def rank (s : State) : Nat ×ₗ Nat ×ₗ Nat ×ₗ Nat :=
  toLex (toMain s, toLex (toLock s, toLex (toJoin s, toReply s)))

/-- A step brings the end nearer, or leaves it and the thread that is waited for as they are. -/
def Progress (s s' : State) (moved : Option Mover) : Prop :=
  rank s' < rank s ∨ rank s' = rank s ∧ helpful s' = helpful s ∧ moved ≠ some (helpful s)

theorem rank_lt_iff {s s' : State} :
    rank s' < rank s ↔ toMain s' < toMain s ∨ toMain s' = toMain s ∧
      (toLock s' < toLock s ∨ toLock s' = toLock s ∧
        (toJoin s' < toJoin s ∨ toJoin s' = toJoin s ∧ toReply s' < toReply s)) := by
  rw [rank, rank, Prod.Lex.toLex_lt_toLex, Prod.Lex.toLex_lt_toLex, Prod.Lex.toLex_lt_toLex]

theorem Progress.main {s s' : State} (moved : Option Mover) (h : toMain s' < toMain s) :
    Progress s s' moved :=
  Or.inl (rank_lt_iff.mpr (Or.inl h))

theorem Progress.lock {s s' : State} (moved : Option Mover) (hmain : toMain s' ≤ toMain s)
    (h : toLock s' < toLock s) : Progress s s' moved := by
  refine Or.inl (rank_lt_iff.mpr ?_)
  rcases Nat.lt_or_eq_of_le hmain with hlt | heq
  · exact Or.inl hlt
  · exact Or.inr ⟨heq, Or.inl h⟩

/-! ## One step -/

theorem mainStep_rank {s s' : State} {ok : Bool} (hflag : s.shutdownRequested = true)
    (hs : mainStep s ok = some s') : toMain s' < toMain s := by
  unfold toMain
  cases hm : s.main <;> simp only [mainStep, hm, reduceCtorEq] at hs
  all_goals repeat' split at hs
  all_goals first
    | (simp at hs; done)
    | (obtain rfl := Option.some.inj hs; cases hready : s.signalThreadReady
        <;> simp_all [mainRank, State.condSignal])

theorem toMain_condSignal {s : State} (h : s.main = .waitReady → s.signalThreadReady = true) :
    toMain s.condSignal ≤ toMain s :=
  mainRank_wake h

theorem sigStep_rank {s s' : State} {pick : Signal} (hwake : Wake s)
    (hs : sigStep s pick = some s') : toMain s' ≤ toMain s ∧ toLock s' < toLock s := by
  have hready : s.sig = .signalReady ∨ s.sig = .signal → s.signalThreadReady = true := by
    intro hsig
    by_contra hnot
    have := hwake.notReady (by simpa using hnot)
    rcases hsig with hsig | hsig <;> simp [hsig] at this
  cases hsig : s.sig <;> simp only [sigStep, hsig, reduceCtorEq] at hs
  case lockReady | lock =>
    split at hs
    · simp at hs
    · obtain rfl := Option.some.inj hs
      exact ⟨Nat.le_refl _, by simp [toLock, signalsLeft, hsig, sigRank]⟩
  case setReady =>
    obtain rfl := Option.some.inj hs
    refine ⟨?_, by simp [toLock, signalsLeft, hsig, sigRank]⟩
    simp only [toMain]
    cases s.signalThreadReady <;> cases s.main <;> simp [mainRank]
  case signalReady | signal =>
    obtain rfl := Option.some.inj hs
    refine ⟨toMain_condSignal fun _ => hready (by simp [hsig]), ?_⟩
    simp [toLock, signalsLeft, hsig, sigRank, State.condSignal]
  case unlockReady | set | unlock =>
    obtain rfl := Option.some.inj hs
    exact ⟨Nat.le_refl _, by simp [toLock, signalsLeft, hsig, sigRank]⟩
  case sigwait =>
    split at hs
    · rename_i hpick
      obtain rfl := Option.some.inj hs
      refine ⟨Nat.le_refl _, ?_⟩
      cases pick <;> simp [toLock, signalsLeft, hsig, sigRank, hpick] <;> omega
    · simp at hs

/-- In the handler, and until its end, the flag is down. -/
def HandlerStopped (s : State) : Prop :=
  ∀ h, s.mgmt.phase = .handler h → h ≠ .store → s.mgmtRunning = false

theorem handlerStep_rank {s s' : State} {p : HandlerPhase} (hstopped : HandlerStopped s)
    (hmain : s.main ≠ .waitReady) (hp : s.mgmt.phase = .handler p)
    (hs : handlerStep s p = some s') : toMain s' ≤ toMain s ∧ toLock s' < toLock s := by
  have hrunning := hstopped p hp
  cases p <;> simp only [handlerStep] at hs
  case lock =>
    split at hs
    · simp at hs
    · obtain rfl := Option.some.inj hs
      simp [toMain, toLock, signalsLeft, hp, lockLeft, handlerLeft, Thread.goto]
  case signal =>
    obtain rfl := Option.some.inj hs
    refine ⟨toMain_condSignal fun hm => absurd hm hmain, ?_⟩
    simp [toLock, signalsLeft, hp, lockLeft, handlerLeft, Thread.goto, State.condSignal]
  all_goals
    obtain rfl := Option.some.inj hs
    simp [toMain, toLock, signalsLeft, hp, lockLeft, handlerLeft, Thread.goto, hrunning]

theorem thread_lockLeft {running : Bool} {t t' : Thread HandlerPhase} {res : Outcome}
    (hs : t.step running .store res = some t') :
    lockLeft running t'.phase ≤ lockLeft running t.phase ∧ mgmtHolds t.phase = false ∧
      mgmtHolds t'.phase = false := by
  -- outside the handler the management thread does not have the mutex, and does not get it
  unfold Thread.step at hs
  repeat' split at hs
  all_goals first
    | (simp at hs; done)
    | (obtain rfl := Option.some.inj hs; cases running
        <;> simp_all [lockLeft, mgmtHolds, Thread.goto, handlerLeft])

theorem awaited_congr (s s' : State) (hmain : s'.main = s.main) (hsig : s'.sig = s.sig)
    (htcp : s.main = .joinTcp → s'.tcp = s.tcp) (hmgmt : s.main = .joinMgmt → s'.mgmt = s.mgmt) :
    awaited s' = awaited s ∧ toJoin s' = toJoin s ∧ toReply s' = toReply s := by
  -- `main` looks at another thread only where it joins it
  unfold awaited toJoin toReply
  rw [hmain, hsig]
  refine ⟨?_, ?_, ?_⟩
  · split
    · rfl
    · rfl
    · rw [htcp ‹_›]
    · rw [hmgmt ‹_›]
    · rfl
  · split
    · rw [htcp ‹_›]
    · rw [hmgmt ‹_›]
    · rfl
  · split
    · rw [hmgmt ‹_›]
    · rfl

theorem awaited_ne {s : State} :
    (s.main ≠ .joinMgmt → awaited s ≠ .mgmt) ∧ (s.main ≠ .joinTcp → awaited s ≠ .tcp) := by
  unfold awaited
  constructor <;> intro hm <;> repeat' split
  all_goals first | contradiction | simp

theorem helpful_client {s : State} {c : Client} (h : helpful s = .client c) :
    s.main = .joinMgmt ∧ c = s.mgmt.client ∧ 0 < s.mgmt.excess := by
  -- a client is waited for only while `main` joins the thread that replies to it
  unfold helpful awaited at h
  repeat' split at h
  all_goals simp_all

theorem helpful_ne {s : State} {x : Mover}
    (hx : x = .mgmt ∧ mgmtHolds s.mgmt.phase = false ∨ x = .tcp) (h : awaited s ≠ x) :
    helpful s ≠ x := by
  -- who has the mutex is not the thread that `main` looks at
  unfold helpful
  rcases hx with ⟨rfl, hfree⟩ | rfl
  · simp only [hfree, Bool.false_eq_true, if_false]
    repeat' split
    · simp
    · simp
    · exact h
  · repeat' split
    · simp
    · simp
    · simp
    · exact h

theorem moved_ne {s : State} {x : Mover} {moved : Option Mover}
    (hmoved : moved = none ∨ moved = some x) (h : helpful s ≠ x) : moved ≠ some (helpful s) := by
  rcases hmoved with rfl | rfl
  · simp
  · exact fun heq => h (Option.some.inj heq).symm

theorem mgmtStep_progress {s s' : State} {res : Outcome} {moved : Option Mover}
    (hmoved : moved = none ∨ moved = some .mgmt) (h : Inv s) (hstopped : HandlerStopped s)
    (hs : mgmtStep s res = some s') : Progress s s' moved := by
  unfold mgmtStep at hs
  split at hs
  · rename_i p hp
    have hmain : s.main ≠ .waitReady := by
      intro hm
      have := h.past.mgmtCreated (by simp [hm, MainPhase.stage])
      simp [hp] at this
    obtain ⟨hle, hlt⟩ := handlerStep_rank hstopped hmain hp hs
    exact .lock _ hle hlt
  · obtain ⟨t, ht, rfl⟩ := Option.map_eq_some_iff.mp hs
    obtain ⟨hlock, hfree, hfree'⟩ := thread_lockLeft ht
    rcases Nat.lt_or_eq_of_le hlock with hlt | heq
    · refine .lock _ (Nat.le_refl _) ?_
      simp only [toLock, signalsLeft]
      omega
    have hsame : toLock { s with mgmt := t } = toLock s := by simp only [toLock, signalsLeft, heq]
    by_cases hm : s.main = .joinMgmt
    · -- `main` waits for this thread, whose flag is down
      rw [h.past.stopped (by simp [hm, MainPhase.stage])] at ht
      refine Or.inl (rank_lt_iff.mpr (Or.inr ⟨rfl, Or.inr ⟨hsame, Or.inl ?_⟩⟩))
      simpa [toJoin, hm] using step_rank handlerLeft ht
    · obtain ⟨hawaited, hjoin, hreply⟩ :=
        awaited_congr s { s with mgmt := t } rfl rfl (fun _ => rfl)
        fun hj => absurd hj hm
      refine Or.inr ⟨?_, ?_, moved_ne hmoved (helpful_ne (Or.inl ⟨rfl, hfree⟩) (awaited_ne.1 hm))⟩
      · rw [rank, hsame, hjoin, hreply]
        rfl
      · simp only [helpful, hawaited, hfree, hfree']

theorem tcpStep_left {s s' : State} {res : Result} (hflag : s.shutdownRequested = true)
    (hs : tcpStep s res = some s') : tcpLeft s'.tcp < tcpLeft s.tcp := by
  cases htcp : s.tcp <;> simp only [tcpStep, htcp, reduceCtorEq] at hs
  case setup =>
    obtain rfl := Option.some.inj hs
    cases res <;> simp [tcpLeft]
  case test =>
    obtain rfl := Option.some.inj hs
    simp [tcpLeft, hflag]
  case poll =>
    repeat' split at hs
    all_goals first
      | (simp at hs; done)
      | (obtain rfl := Option.some.inj hs; simp [tcpLeft])
  case ready | leaving =>
    obtain rfl := Option.some.inj hs
    simp [tcpLeft]

theorem tcpStep_progress {s s' : State} {res : Result} {moved : Option Mover}
    (hmoved : moved = none ∨ moved = some .tcp) (hflag : s.shutdownRequested = true)
    (hs : tcpStep s res = some s') : Progress s s' moved := by
  have hlt := tcpStep_left hflag hs
  obtain ⟨tcp, backlog, client, rfl⟩ := tcpStep_frame hs
  by_cases hm : s.main = .joinTcp
  · refine Or.inl (rank_lt_iff.mpr (Or.inr ⟨rfl, Or.inr ⟨rfl, Or.inl ?_⟩⟩))
    simpa [toJoin, hm] using hlt
  · obtain ⟨hawaited, hjoin, hreply⟩ := awaited_congr s
      { s with tcp := tcp, backlog := backlog, client := client } rfl rfl (fun hj => absurd hj hm)
        fun _ => rfl
    refine Or.inr ⟨?_, ?_, moved_ne hmoved (helpful_ne (Or.inr rfl) (awaited_ne.2 hm))⟩
    · rw [rank, hjoin, hreply]
      rfl
    · rw [helpful, hawaited]
      rfl

theorem mgmtClient_progress {s s' : State} {a : Mailboxes.Action Client}
    (hs : step s (.mgmtClient a) = some s') : Progress s s' (mover s (.mgmtClient a)) := by
  obtain ⟨clients, hclients, rfl⟩ := mgmtClient_frame hs
  by_cases hm : s.main = .joinMgmt
  · have hclient : s.mgmt.clientStep a = some { s.mgmt with clients := clients } := by
      rw [Thread.clientStep, hclients]
      rfl
    obtain ⟨hle, hlt⟩ := clientStep_excess hclient
    rcases Nat.lt_or_eq_of_le hle with hless | heq
    · refine Or.inl (rank_lt_iff.mpr (Or.inr ⟨rfl, Or.inr ⟨rfl, Or.inr ⟨rfl, ?_⟩⟩⟩))
      simpa [toReply, hm] using hless
    · refine Or.inr ⟨by simp [rank, toReply, hm, heq, toMain, toLock, signalsLeft, toJoin], ?_, ?_⟩
      · simp only [helpful, awaited, hm, heq]
      · simp only [mover]
        split
        · intro hmoved
          obtain ⟨-, howner, hpos⟩ := helpful_client (Option.some.inj hmoved).symm
          exact absurd (hlt howner hpos) (by omega)
        · simp
  · obtain ⟨hawaited, hjoin, hreply⟩ :=
      awaited_congr s { s with mgmt := { s.mgmt with clients := clients } }
      rfl rfl (fun _ => rfl) fun hj => absurd hj hm
    refine Or.inr ⟨?_, ?_, ?_⟩
    · rw [rank, hjoin, hreply]
      rfl
    · rw [helpful, hawaited]
      rfl
    · refine moved_ne (x := .client a.owner) ?_ fun hclient => hm (helpful_client hclient).1
      simp only [mover]
      split <;> simp

theorem outside_progress {s s' : State} {a : Action} (ha : a.outside = true) (hcalm : Calm s a)
    (hs : step s a = some s') : Progress s s' (mover s a) := by
  cases a <;> simp only [Action.outside, Bool.false_eq_true] at ha
  case mgmtClient a => exact mgmtClient_progress hs
  all_goals
    obtain rfl := Option.some.inj hs
    refine Or.inr ?_
  case kill sig =>
    cases sig with
    | int | term => exact absurd hcalm id
    | usr1 =>
      exact ⟨by simp [rank, toMain, toLock, signalsLeft, toJoin, toReply], rfl, by simp [mover]⟩
  case spurious => exact absurd hcalm id
  all_goals exact ⟨rfl, rfl, by simp [mover]⟩

theorem step_progress {s s' : State} {a : Action} (h : Inv s) (hstopped : HandlerStopped s)
    (hflag : s.shutdownRequested = true) (hcalm : Calm s a) (hs : step s a = some s') :
    Progress s s' (mover s a) := by
  cases a with
  | main ok => exact .main _ (mainStep_rank hflag hs)
  | sig pick =>
    obtain ⟨hle, hlt⟩ := sigStep_rank h.wake hs
    exact .lock _ hle hlt
  | tcp res =>
    refine tcpStep_progress ?_ hflag hs
    simp only [mover]
    split <;> simp
  | mgmt res =>
    refine mgmtStep_progress ?_ h hstopped hs
    simp only [mover]
    split <;> simp
  | _ => exact outside_progress rfl hcalm hs

/-! ## The flag of the management thread -/

theorem thread_enters_at_store {running : Bool} {t t' : Thread HandlerPhase} {res : Outcome}
    {h : HandlerPhase} (hs : t.step running .store res = some t') (hp : t'.phase = .handler h) :
    h = .store := by
  unfold Thread.step at hs
  repeat' split at hs
  all_goals first
    | (simp at hs; done)
    | (obtain rfl := Option.some.inj hs; simp_all [Thread.goto])

theorem mgmtStep_handlerStopped {s s' : State} {res : Outcome} (h : HandlerStopped s)
    (hs : mgmtStep s res = some s') : HandlerStopped s' := by
  unfold mgmtStep at hs
  split at hs
  · rename_i p hp
    have hrunning := h p hp
    intro q hq hne
    cases p <;> simp only [handlerStep] at hs
    case lock =>
      split at hs
      · simp at hs
      · obtain rfl := Option.some.inj hs
        exact hrunning (by simp)
    case store =>
      obtain rfl := Option.some.inj hs
      rfl
    all_goals
      obtain rfl := Option.some.inj hs
      exact hrunning (by simp)
  · obtain ⟨t, ht, rfl⟩ := Option.map_eq_some_iff.mp hs
    intro q hq hne
    exact absurd (thread_enters_at_store ht hq) hne

theorem step_handlerStopped {s s' : State} {a : Action} (h : HandlerStopped s)
    (hs : step s a = some s') : HandlerStopped s' := by
  cases a with
  | main ok =>
    obtain ⟨hmgmt | ⟨-, hmgmt⟩, hrunning⟩ := mainStep_mgmt hs
    · intro p hp hne
      exact hrunning (h p (hmgmt ▸ hp) hne)
    · intro p hp
      simp [hmgmt, Thread.goto] at hp
  | sig pick =>
    obtain ⟨hmgmt, hrunning⟩ := sigStep_mgmt hs
    intro p hp hne
    rw [hrunning]
    exact h p (hmgmt ▸ hp) hne
  | tcp res =>
    obtain ⟨tcp, backlog, client, rfl⟩ := tcpStep_frame hs
    exact h
  | mgmt res => exact mgmtStep_handlerStopped h hs
  | mgmtClient a =>
    obtain ⟨clients, -, rfl⟩ := mgmtClient_frame hs
    exact h
  | _ =>
    obtain rfl := Option.some.inj hs
    exact h

/-! ## Who is waited for can go on -/

theorem main_enabled {s : State} (hfree : s.main.holds = true ∨ s.locked = false)
    (hmain : s.main ≠ .waitReady ∧ s.main ≠ .waitShutdown ∧ s.main ≠ .exited ∧ s.main ≠ .failed)
    (hjoin : (s.main = .joinSig → s.sig = .ended) ∧ (s.main = .joinTcp → s.tcp = .ended) ∧
      (s.main = .joinMgmt → s.mgmt.phase.gone = true)) : Enabled step mover .main s := by
  obtain ⟨hwait, hwait', hexited, hfailed⟩ := hmain
  obtain ⟨hsig, htcp, hmgmt⟩ := hjoin
  refine ⟨.main true, rfl, ?_⟩
  cases hm : s.main
  case waitReady | waitShutdown | exited | failed => contradiction
  case lockReady | wokenReady | lockFailed | lockShutdown | wokenShutdown =>
    have hlocked : s.locked = false := by simpa [hm, MainPhase.holds] using hfree
    simp [step, mainStep, hm, hlocked]
  case joinSig => simp [step, mainStep, hm, hsig hm]
  case joinTcp => simp [step, mainStep, hm, htcp hm]
  case joinMgmt => simp [step, mainStep, hm, hmgmt hm]
  all_goals simp [step, mainStep, hm]

theorem sig_enabled {s : State} (hfree : s.sig.holds = true ∨ s.locked = false)
    (hsig : s.sig ≠ .notCreated ∧ s.sig ≠ .ended)
    (husr1 : s.sig = .sigwait → s.pending .usr1 = true) : Enabled step mover .sig s := by
  refine ⟨.sig .usr1, rfl, ?_⟩
  cases hp : s.sig
  case notCreated => exact absurd hp hsig.1
  case ended => exact absurd hp hsig.2
  case lockReady | lock =>
    have hlocked : s.locked = false := by simpa [hp, SigPhase.holds] using hfree
    simp [step, sigStep, hp, hlocked]
  case sigwait => simp [step, sigStep, hp, husr1 hp]
  all_goals simp [step, sigStep, hp]

theorem tcp_enabled {s : State} (htcp : s.tcp ≠ .notCreated ∧ s.tcp ≠ .ended)
    (hpipe : s.tcp = .poll → s.pipeWritten = true) : Enabled step mover .tcp s := by
  refine ⟨.tcp .ok, by simp [mover], ?_⟩
  cases hp : s.tcp
  case notCreated => exact absurd hp htcp.1
  case ended => exact absurd hp htcp.2
  case poll => simp [step, tcpStep, hp, hpipe hp]
  all_goals simp [step, tcpStep, hp]

theorem mgmt_enabled {s : State} (hfree : mgmtHolds s.mgmt.phase = true ∨ s.locked = false)
    (hgone : s.mgmt.phase.gone = false) (hsend : s.mgmt.excess = 0) :
    Enabled step mover .mgmt s := by
  by_cases hh : ∃ p, s.mgmt.phase = .handler p
  · obtain ⟨p, hp⟩ := hh
    refine ⟨.mgmt .ok, by simp [mover, Thread.moves, hp], ?_⟩
    cases p
    case lock =>
      have hlocked : s.locked = false := by simpa [hp, mgmtHolds] using hfree
      simp [step, mgmtStep, hp, handlerStep, hlocked]
    all_goals simp [step, mgmtStep, hp, handlerStep]
  · obtain ⟨res, hmoves, hres⟩ :=
      exists_step s.mgmtRunning HandlerPhase.store hgone (fun p hp => hh ⟨p, hp⟩) hsend
    refine ⟨.mgmt res, by simp [mover, hmoves], ?_⟩
    simp only [step, mgmtStep]
    split
    · exact absurd ⟨_, ‹_›⟩ hh
    · rwa [Option.isSome_map]

theorem client_enabled {s : State} (hsend : 0 < s.mgmt.excess) :
    Enabled step mover (.client s.mgmt.client) s := by
  obtain ⟨hpos, htake⟩ := exists_clientStep hsend
  refine ⟨.mgmtClient (.take s.mgmt.client), by simp [mover, Mailboxes.Action.owner, hpos], ?_⟩
  simp [step, htake]

theorem awaited_enabled {s : State} (h : Inv s) (hflag : s.shutdownRequested = true)
    (hexited : s.main ≠ .exited) (hfree : s.locked = false) (hsig : s.sig.holds = false)
    (hmgmt : mgmtHolds s.mgmt.phase = false) : Enabled step mover (awaited s) s := by
  unfold awaited
  split
  · rename_i hm
    have hp := h.sig_starts hflag hm hsig
    exact sig_enabled (Or.inr hfree) (by simp [hp]) (by simp [hp])
  · rename_i hm
    split
    · rename_i hended
      exact main_enabled (Or.inr hfree) (by simp [hm]) (by simp [hm, hended])
    · rename_i hrun
      exact sig_enabled (Or.inr hfree) ⟨h.sig_created hflag, hrun⟩ fun _ => h.sig_told hm hrun
  · rename_i hm
    split
    · rename_i hended
      exact main_enabled (Or.inr hfree) (by simp [hm]) (by simp [hm, hended])
    · rename_i hrun
      exact tcp_enabled ⟨h.tcp_created hm, hrun⟩ fun _ =>
        h.past.written (by simp [hm, MainPhase.stage])
  · rename_i hm
    split
    · rename_i hgone
      exact main_enabled (Or.inr hfree) (by simp [hm]) (by simp [hm, hgone])
    · rename_i hrun
      split
      · rename_i hsend
        exact client_enabled hsend
      · rename_i hsend
        exact mgmt_enabled (Or.inr hfree) (by simpa using hrun) (by omega)
  · rename_i hready hjoinSig hjoinTcp hjoinMgmt
    exact main_enabled (Or.inr hfree)
      ⟨hready, h.main_ne_waitShutdown hflag hsig hmgmt, hexited, h.main_ne_failed hflag⟩
      ⟨fun hm => absurd hm hjoinSig, fun hm => absurd hm hjoinTcp, fun hm => absurd hm hjoinMgmt⟩

theorem helpful_enabled {s : State} (h : Inv s) (hflag : s.shutdownRequested = true)
    (hexited : s.main ≠ .exited) : Enabled step mover (helpful s) s := by
  unfold helpful
  -- a thread in its critical section can always go on
  split
  · rename_i hmain
    refine main_enabled (Or.inl hmain) ⟨?_, ?_, hexited, ?_⟩ ⟨?_, ?_, ?_⟩ <;>
      (intro hm; simp [hm, MainPhase.holds] at hmain)
  · rename_i hmain
    split
    · rename_i hsig
      refine sig_enabled (Or.inl hsig) ⟨?_, ?_⟩ ?_ <;> (intro hp; simp [hp, SigPhase.holds] at hsig)
    · rename_i hsig
      split
      · rename_i hmgmt
        refine mgmt_enabled (Or.inl hmgmt) ?_ ?_
        all_goals
          cases hp : s.mgmt.phase <;> simp [hp, mgmtHolds] at hmgmt
          simp [Phase.gone, Thread.excess, hp]
      · rename_i hmgmt
        have hfree : s.locked = false := by simp [State.locked, hmain, hsig, hmgmt]
        exact awaited_enabled h hflag hexited hfree (by simpa using hsig) (by simpa using hmgmt)

/-- In every fair run, once a shutdown has been requested and neither `SIGINT` nor `SIGTERM` comes
any more, `main` returns with all threads ended. The clients are among those the run is fair to: one
that has replies to read reads one, or closes its socket, some time. -/
theorem exits (r : InfRun step) {clients : Mailboxes.State Client}
    (hinit : r.state 0 = init clients) (hfair : r.Fair mover) {n : Nat} (hcalm : r.Meets n Calm)
    (hflag : (r.state n).shutdownRequested = true) :
    ∃ m, n ≤ m ∧ (r.state m).main = .exited ∧ (r.state m).sig = .ended ∧ (r.state m).tcp = .ended ∧
      (r.state m).mgmt.phase.gone = true := by
  have hinv : ∀ m, Inv (r.state m) ∧ HandlerStopped (r.state m) := by
    intro m
    refine r.invariant (P := fun _ _ => True)
      (I := fun s => Inv s ∧ HandlerStopped s) ?_ (fun _ _ _ _ => trivial)
      ?_ (Nat.zero_le m)
    · rintro s a s' ⟨hi, hh⟩ - hs
      exact ⟨step_inv s a s' hi hs, step_handlerStopped hh hs⟩
    · rw [hinit]
      exact ⟨init_inv clients, by simp [HandlerStopped, init, Thread.init]⟩
  obtain ⟨m, hm, hexited⟩ : ∃ m, n ≤ m ∧ (r.state m).main = .exited := by
    refine InfRun.reaches (I := fun s => (Inv s ∧ HandlerStopped s) ∧ s.shutdownRequested = true)
      (G := fun s => s.main = .exited) rank helpful ?_ ?_ r hfair hcalm ⟨hinv n, hflag⟩
    · rintro s ⟨⟨hi, -⟩, hf⟩ hexited
      exact helpful_enabled hi hf hexited
    · rintro s a s' ⟨⟨hi, hh⟩, hf⟩ - hc hs
      exact ⟨⟨⟨step_inv s a s' hi hs, step_handlerStopped hh hs⟩, step_shutdownRequested hf hs⟩,
        step_progress hi hh hf hc hs⟩
  have hpast := (hinv m).1.past
  refine ⟨m, hm, hexited, hpast.sigJoined ?_, hpast.tcpJoined ?_, hpast.mgmtJoined ?_⟩ <;>
    simp [hexited, MainPhase.stage]

/-- A client sends two requests, and its queue has room for one reply. `SIGTERM` comes, and the
threads end one after the other, the management thread after the client has read both. -/
def terminated : List Action :=
  unreadReplies ++ [.mgmtClient (.take 0)] ++ List.replicate 3 (.mgmt .ok) ++
    [.mgmtClient (.take 0), .main true, .main true]

def afterTerminated : State := (exec step (init (.empty 0)) terminated).getD (init (.empty 0))

theorem terminated_exec : exec step (init (.empty 0)) terminated = some afterTerminated := rfl

theorem afterTerminated_rests (x : Mover) : ¬ Enabled step mover x afterTerminated := by
  rintro ⟨a, hmover, hs⟩
  cases a with
  | main ok => cases hs
  | sig pick => cases hs
  | tcp res => cases hs
  | mgmt res => cases hs
  | mgmtClient a =>
    have hread : ∀ c, afterTerminated.mgmt.clients.unread c = 0 := by
      intro c
      cases c <;> rfl
    simp [mover, hread] at hmover
  | _ => simp [mover] at hmover

theorem terminated_exits :
    ∃ m, 33 ≤ m ∧ ((InfRun.ofList terminated_exec).state m).main = .exited ∧
      ((InfRun.ofList terminated_exec).state m).sig = .ended ∧
      ((InfRun.ofList terminated_exec).state m).tcp = .ended ∧
      ((InfRun.ofList terminated_exec).state m).mgmt.phase.gone = true := by
  refine exits (InfRun.ofList terminated_exec) rfl (InfRun.ofList_fair _ afterTerminated_rests) ?_
    rfl
  refine InfRun.ofList_meets (n := 33) _ rfl (along_of_forall_mem ?_ _)
  simp [terminated, unreadReplies, startedUp, Calm]

end StudyC.Viewer
