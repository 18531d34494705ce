import CleanSlate.Network.Tcp.Transport

/-!
# The next timer

`tick_timers` looks at three deadlines, each under a guard of its own, and `next_timer_deadline` at the
same three. A tick before the earliest of them finds nothing to do, and every later one finds work.
-/

namespace CleanSlate.Network.Tcp

variable {deadline next : Option Nat}

/-- The tick is before the deadline, if there is one. -/
def Before (now : Nat) (deadline : Option Nat) : Prop := ∀ d ∈ deadline, now < d

variable {now : Nat}

theorem before_none : Before now none := nofun

theorem before_some {d : Nat} : Before now (some d) ↔ now < d := by simp [Before]

theorem any_le : deadline.any (· ≤ now) ↔ ¬Before now deadline := by
  cases deadline <;> simp [Before]

theorem before_min {deadlines : List Nat} :
    Before now deadlines.min? ↔ ∀ d ∈ deadlines, now < d := by
  cases hmin : deadlines.min? with
  | none => simp [List.min?_eq_none_iff.1 hmin, before_none]
  | some d =>
    rw [before_some]
    exact List.le_min?_iff hmin

namespace TcpConnection

variable {c : TcpConnection}

theorem before_consider {deadline : Nat} :
    Before now (consider next deadline) ↔ Before now next ∧ now < deadline := by
  cases next <;> simp [consider, Before]

theorem before_elim :
    Before now (deadline.elim next (consider next)) ↔ Before now next ∧ Before now deadline := by
  cases deadline with
  | none => exact (and_iff_left before_none).symm
  | some d => exact before_consider.trans (and_congr_right' before_some.symm)

/-- The timers find nothing to do. -/
def Idle (c : TcpConnection) (now : Nat) : Prop := c.tickTimers now = (.none, c)

theorem tickRetransmit_idle : c.tickRetransmit now = (.none, c) ↔
    (c.state = .synSent → Before now c.connectDeadline) ∧
      (c.retransmit.active → Before now c.rtoDeadline) := by
  unfold tickRetransmit timeOut
  split
  · next hcn => exact ⟨nofun, fun h => absurd (h.1 hcn.1) (any_le.1 hcn.2)⟩
  next hcn =>
  split
  · next hrto =>
    refine ⟨fun h => ?_, fun h => absurd (h.2 hrto.1) (any_le.1 hrto.2)⟩
    split at h <;> cases h
  · next hrto =>
    refine ⟨fun _ => ⟨fun hs => ?_, fun hac => ?_⟩, fun _ => rfl⟩
    · exact not_not.1 fun hnot => hcn ⟨hs, any_le.2 hnot⟩
    · exact not_not.1 fun hnot => hrto ⟨hac, any_le.2 hnot⟩

theorem tickRetransmit_timeWaitDeadline :
    (c.tickRetransmit now).2.timeWaitDeadline = c.timeWaitDeadline := by
  unfold tickRetransmit
  split
  · rfl
  split
  · split <;> rfl
  · rfl

theorem before_nextTimerDeadline (h : c.failed = none) :
    Before now c.nextTimerDeadline ↔ (c.state = .timeWait → now < c.timeWaitDeadline.getD 0) ∧
      c.tickRetransmit now = (.none, c) := by
  rw [tickRetransmit_idle]
  unfold nextTimerDeadline
  rw [h]
  by_cases hwt : c.state = .timeWait <;> by_cases hsyn : c.state = .synSent <;>
    by_cases hac : c.retransmit.active <;>
    simp [hwt, hsyn, hac, before_elim, before_consider, before_none]

/-- A connection is idle before its next deadline, and at no later tick. -/
theorem idle_iff (h : c.failed = none) : c.Idle now ↔ Before now c.nextTimerDeadline := by
  rw [before_nextTimerDeadline h]
  unfold Idle tickTimers
  split
  · next e hfl => exact absurd (hfl.symm.trans h) (Option.some_ne_none e)
  dsimp only
  split
  · next hwt =>
    cases har : c.timeWaitDeadline with
    | none =>
      -- the deadline is armed, whatever the tick
      refine ⟨fun hid => ?_, fun hbf => absurd (hbf.1 hwt) (Nat.not_lt_zero now)⟩
      have hun := congrArg (·.2.timeWaitDeadline) hid
      rw [har] at hun
      split at hun
      · cases hun
      · rw [tickRetransmit_timeWaitDeadline] at hun
        cases hun
    | some deadline =>
      have hsm : ({ c with timeWaitDeadline := some deadline } : TcpConnection) = c := by
        rw [← har]
      dsimp only [Option.getD_some]
      rw [hsm]
      split
      · next hdue => exact ⟨nofun, fun hbf => absurd (hbf.1 hwt) (Nat.not_lt.2 hdue)⟩
      · next hdue => exact (and_iff_right fun _ => Nat.not_le.1 hdue).symm
  · next hwt => exact (and_iff_right fun h => absurd h hwt).symm

end TcpConnection

theorem TcpTransport.before_nextTimerDeadline (s : TcpTransport) (now : Nat) :
    Before now s.nextTimerDeadline ↔
      ∀ i c, s.table.slots i = some c → Before now c.nextTimerDeadline := by
  unfold nextTimerDeadline
  rw [before_min]
  constructor
  · intro h i c hc d hd
    exact h d (List.mem_filterMap.2 ⟨i, List.mem_finRange i, by rw [hc]; exact hd⟩)
  · intro h d hmem
    obtain ⟨i, -, hi⟩ := List.mem_filterMap.1 hmem
    obtain ⟨c, hc, hd⟩ := Option.bind_eq_some_iff.1 hi
    exact h i c hc d hd

namespace TcpConnection

/-- The next deadline is where the timers find work: at every tick before it they change nothing and
ask for nothing, at every tick from it on they change a timer or ask for an action, and without one a
connection that has not failed has nothing to do at any tick. So it is for the connections of a
transport and its own next deadline. -/
theorem next_timer_deadline_exact (c : TcpConnection) (s : TcpTransport) :
    (∀ d, c.nextTimerDeadline = some d → ∀ now, c.Idle now ↔ now < d) ∧
    (c.nextTimerDeadline = none → c.failed = none → ∀ now, c.Idle now) ∧
    ∀ now, (∀ i c, s.table.slots i = some c → c.failed = none → c.Idle now) ↔
      Before now s.nextTimerDeadline := by
  refine ⟨fun d hd now => ?_, fun hnn h now => ?_, fun now => ?_⟩
  · cases h : c.failed with
    | none => rw [idle_iff h, hd, before_some]
    | some e =>
      unfold nextTimerDeadline at hd
      rw [h] at hd
      cases hd
  · rw [idle_iff h, hnn]
    exact before_none
  · rw [s.before_nextTimerDeadline]
    refine forall_congr' fun i => forall_congr' fun c => forall_congr' fun _ => ?_
    cases h : c.failed with
    | none => exact (forall_prop_of_true rfl).trans (idle_iff h)
    | some e =>
      unfold nextTimerDeadline
      rw [h]
      exact iff_of_true nofun before_none

theorem next_timer_deadline_connecting :
    let c := (TcpConnection.new ⟨1, 1, 1⟩ ⟨.new 10 0 2 15, 50000⟩ ⟨.new 10 0 2 2, 4001⟩
      1000).onConnectStart 0
    c.Idle 499 ∧ ¬c.Idle 500 := by
  intro c
  have h := (next_timer_deadline_exact c (.new (.new 10 0 2 15) ⟨1⟩)).1 500 rfl
  exact ⟨(h 499).2 (by decide), fun hid => absurd ((h 500).1 hid) (by decide)⟩

end TcpConnection

end CleanSlate.Network.Tcp
