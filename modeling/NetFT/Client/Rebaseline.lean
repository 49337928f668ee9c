/-
# NetFT.Client.Rebaseline — what `bias()` does to the RDT baseline.

`bias` resets the RDT tracker when it has sent its StartRealtime.  A record of the old stream that is
handled after that, from the socket or from the hands of the worker, becomes the baseline again, and
the restarted stream begins behind it.

* `Link.Lawful`: the records come in the order in which the sensor numbers them.
* `Duty`: the records that were taken from the socket, but the one in the worker's hands, were handled.
* `Link.Clear` is the condition under which no record is dropped.
* **`restarted_kept`**: in every run of the bench whose steps are clear, every record that answers the
  StartRealtime of a `bias` is classified First, Contiguous or Gap.
* `kept_iff_clear`: the condition is exact.
-/
import NetFT.Client.Bench
import NetFT.Client.Conservation

namespace NetFT.Client

set_option autoImplicit false

open Library (Runs restrict)
open Library.Epoch (Tag Ordered)
open Library.Threads (Tid Effect Program)

/-! ## The link -/

namespace Link

/-- The next record for the socket that is in use. -/
def upcoming (l : Link) : Option (Tag UInt32) :=
  if l.sensor.client = some l.socket then some (Tag.next ⟨l.epoch, l.sensor.rdt⟩) else none

/-- Commands and records are numbered in their order. -/
structure Lawful (l : Link) : Prop where
  ordered : Ordered l.taken (l.packets.map (·.tag)) l.upcoming l.epoch
  epoch_le : l.epoch ≤ l.starts
  client_le : ∀ peer ∈ l.sensor.client, peer ≤ l.socket
  sent : ∀ m ∈ l.commands, m.start ≤ l.starts ∧ m.socket ≤ l.socket
  restarts : ∀ m ∈ l.commands, m.command = .StartRealtime → l.epoch < m.start
  increasing : l.commands.Pairwise fun m m' => m'.command = .StartRealtime → m.start < m'.start

namespace Lawful

variable {l l' : Link}

theorem init : Lawful {} where
  ordered := .empty
  epoch_le := le_rfl
  client_le _ h := by cases h
  sent _ h := by cases h
  restarts _ h := by cases h
  increasing := .nil

theorem connect (h : l.Lawful) : l.connect.Lawful where
  ordered := by
    -- the sensor does not know the new socket yet
    have hnone : l.connect.upcoming = none := by
      refine if_neg fun heq => ?_
      have hle := h.client_le _ heq
      exact absurd hle (Nat.not_succ_le_self _)
    rw [hnone]
    exact .empty
  epoch_le := h.epoch_le
  client_le peer hpeer := (h.client_le peer hpeer).trans (Nat.le_succ _)
  sent m hm := ⟨(h.sent m hm).1, (h.sent m hm).2.trans (Nat.le_succ _)⟩
  restarts := h.restarts
  increasing := h.increasing

theorem send (h : l.Lawful) (command : Command) (result : Except String Unit) :
    (l.send command result).Lawful := by
  have hle : l.starts ≤ l.startsWith command := by
    unfold startsWith
    split_ifs <;> omega
  have hlt : command = .StartRealtime → l.starts < l.startsWith command := fun hstart => by
    rw [startsWith, if_pos hstart]
    exact Nat.lt_succ_self _
  unfold Link.send
  split_ifs with hok
  · refine ⟨h.ordered, h.epoch_le.trans hle, h.client_le, fun m hm => ?_, fun m hm hstart => ?_, ?_⟩
    · rcases List.mem_append.mp hm with hm | hm
      · exact ⟨(h.sent m hm).1.trans hle, (h.sent m hm).2⟩
      · obtain rfl := List.mem_singleton.mp hm
        exact ⟨le_rfl, le_rfl⟩
    · rcases List.mem_append.mp hm with hm | hm
      · exact h.restarts m hm hstart
      · obtain rfl := List.mem_singleton.mp hm
        exact h.epoch_le.trans_lt (hlt hstart)
    · refine List.pairwise_append.mpr
        ⟨h.increasing, List.pairwise_singleton _ _, fun m hm m' hm' hstart => ?_⟩
      obtain rfl := List.mem_singleton.mp hm'
      exact (h.sent m hm).1.trans_lt (hlt hstart)
  · exact h

theorem sendRestart (h : l.Lawful) (result : Except String Unit) : (l.sendRestart result).Lawful := by
  have hsend := h.send .StartRealtime result
  unfold Link.sendRestart
  split_ifs
  · exact ⟨hsend.ordered, hsend.epoch_le, hsend.client_le, hsend.sent, hsend.restarts, hsend.increasing⟩
  · exact hsend

theorem forget (h : l.Lawful) : l.forget.Lawful :=
  ⟨h.ordered, h.epoch_le, h.client_le, h.sent, h.restarts, h.increasing⟩

theorem handle (h : l.Lawful) (kind : SequenceKind) : (l.handle kind).Lawful := by
  unfold Link.handle
  split
  · exact h
  · exact ⟨h.ordered, h.epoch_le, h.client_le, h.sent, h.restarts, h.increasing⟩

end Lawful

/-- What `receive` can return. -/
theorem receive_cases {l l' : Link} {data : List UInt8} (h : l.receive data = some l') :
    data = [] ∧ l' = l ∨
      ∃ d rest, l.packets = d :: rest ∧ d.data = data ∧
        l' = { l with packets := rest, taken := some d.tag } := by
  unfold receive at h
  split at h
  · cases h
    exact .inl ⟨rfl, rfl⟩
  · cases h
  · rename_i hpackets
    split_ifs at h with hdata
    cases h
    exact .inr ⟨_, _, hpackets, hdata, rfl⟩

namespace Lawful

variable {l l' : Link}

theorem receive (h : l.Lawful) {data : List UInt8} (hreceive : l.receive data = some l') : l'.Lawful := by
  rcases receive_cases hreceive with ⟨-, rfl⟩ | ⟨d, rest, hpackets, -, rfl⟩
  · exact h
  · refine ⟨?_, h.epoch_le, h.client_le, h.sent, h.restarts, h.increasing⟩
    have hordered := h.ordered
    rw [hpackets] at hordered
    exact hordered.take

/-- A StartRealtime restarts the numbers; the other commands leave them. -/
theorem arrive (h : l.Lawful) (harrive : l.arrive = some l') : l'.Lawful := by
  unfold Link.arrive at harrive
  split at harrive
  · cases harrive
  rename_i m rest hcommands
  cases harrive
  obtain ⟨hordered, hepoch, hclient, hsent, hrestarts, hincreasing⟩ := h
  rw [hcommands] at hsent hrestarts hincreasing
  have hm := hsent m List.mem_cons_self
  have hrest := List.pairwise_cons.mp hincreasing
  by_cases hstart : m.command = .StartRealtime
  -- it may come from a socket that has been closed since: then nothing more is sent to this one
  · have hlt := hrestarts m List.mem_cons_self hstart
    simp only [hstart, if_true]
    refine ⟨?_, hm.1, ?_, fun m' hm' => hsent m' (List.mem_cons_of_mem m hm'),
      fun m' hm' hstart' => hrest.1 m' hm' hstart', hrest.2⟩
    · by_cases hpeer : m.socket = l.socket
      · have hup : upcoming { l with
            commands := rest, sensor := l.sensor.recordCommand .StartRealtime m.socket,
            epoch := m.start } = some (.first m.start) := if_pos (congrArg some hpeer)
        rw [hup]
        exact hordered.restart hlt
      · have hup : upcoming { l with
            commands := rest, sensor := l.sensor.recordCommand .StartRealtime m.socket,
            epoch := m.start } = none := if_neg fun heq => hpeer (Option.some.inj heq)
        rw [hup]
        exact hordered.leave hlt
    · rintro peer heq
      obtain rfl : m.socket = peer := Option.some.inj heq
      exact hm.2
  · have hsensor : (l.sensor.recordCommand m.command m.socket).client = l.sensor.client ∧
        (l.sensor.recordCommand m.command m.socket).rdt = l.sensor.rdt := by
      cases hcommand : m.command <;> first
        | exact absurd hcommand hstart
        | exact ⟨rfl, rfl⟩
    simp only [hstart, if_false]
    refine ⟨?_, hepoch, by rw [hsensor.1]; exact hclient,
      fun m' hm' => hsent m' (List.mem_cons_of_mem m hm'),
      fun m' hm' => hrestarts m' (List.mem_cons_of_mem m hm'), hrest.2⟩
    have hup : upcoming { l with
        commands := rest, sensor := l.sensor.recordCommand m.command m.socket } = l.upcoming := by
      simp only [upcoming, hsensor]
    rw [hup]
    exact hordered

/-- The sensor sends the next number. -/
theorem emit (h : l.Lawful) {reading : RawRecord} (hemit : l.emit reading = some l') : l'.Lawful := by
  simp only [Link.emit, FakeSensor.sendNext, Option.map_eq_some_iff, Prod.exists] at hemit
  obtain ⟨peer, record, sensor, hsend, rfl⟩ := hemit
  split_ifs at hsend with hstreaming
  obtain ⟨_, hclient, heq⟩ := Option.map_eq_some_iff.mp hsend
  cases heq
  refine ⟨?_, h.epoch_le, h.client_le, h.sent, h.restarts, h.increasing⟩
  have hordered := h.ordered
  unfold upcoming at hordered ⊢
  -- a record for a closed socket is lost, the numbers go on
  by_cases hpeer : peer = l.socket
  · have hsocket : l.sensor.client = some l.socket := hpeer ▸ hclient
    rw [if_pos hsocket] at hordered
    simp only [if_pos hpeer, if_pos hsocket, List.map_append, List.map_cons, List.map_nil]
    exact hordered.emit rfl
  · have hsocket : l.sensor.client ≠ some l.socket := fun heq =>
      hpeer (Option.some.inj (hclient.symm.trans heq))
    rw [if_neg hsocket] at hordered
    simp only [if_neg hpeer, if_neg hsocket]
    exact hordered

end Lawful

end Link

/-- A step of the client keeps the order. -/
theorem Pc.link_lawful {p : Pc} {choice : Choice} {c : Impl} {l l' : Link} (h : l.Lawful)
    (hlink : p.link choice c l = some l') : l'.Lawful := by
  unfold Pc.link at hlink
  split at hlink
  · split_ifs at hlink <;> cases hlink
    · exact h.connect
    · exact h
  · cases hlink
    exact h.send _ _
  · cases hlink
    exact h.forget
  · cases hlink
    exact h.forget
  · split at hlink
    · exact h.receive hlink
    · cases hlink
      exact h
  · cases hlink
    exact h.handle _
  all_goals first
    | (cases hlink; first | exact h | exact h.send _ _ | exact h.sendRestart _)
    | (split_ifs at hlink <;> cases hlink <;> first | exact h | exact h.send _ _)

/-! ## What is in the hands of the worker -/

/-- Where a thread stands in `receive_session`: elsewhere, with every record handled that it took from
the socket, or with the record of this number still to be handled. -/
inductive Duty where
  | away | idle | holding (number : UInt32)
  deriving DecidableEq, Repr

def RunPc.duty : RunPc → Duty
  | .received _ data =>
    match decodeRecord data with
    | .ok record => .holding record.rdtSequence
    | .error _ => .idle
  | .wellFormed _ record | .observe _ record _ => .holding record.rdtSequence
  | .deadline _ | .check _ | .clock _ | .receive _ | .malformed _ | .invoke _ | .inCallback _
  | .callbackThrew _ _ | .deliver _ | .deliveredFirst _ | .deliveredLifecycle _ => .idle
  | _ => .away

/-- A call from the callback finds the record of the callback handled. -/
def Pc.duty : Pc → Duty
  | .run pc => pc.duty
  | p => if p.ctx.isCallback then .idle else .away

def Duty.Met (duty : Duty) (l : Link) : Prop :=
  match duty with
  | .away => True
  | .idle => ∀ a ∈ l.newest, l.taken = some a
  | .holding number => ∃ b, l.taken = some b ∧ b.number = number ∧ ∀ a ∈ l.newest, a.Follows b

/-- The baseline is the number of the newest record. -/
structure Link.Tracked (l : Link) (t : RdtSequenceTracker) : Prop where
  hasLast : t.hasLast = l.newest.isSome
  previous : ∀ a ∈ l.newest, t.previous = a.number

/-! ## What an action does -/

/-- The control points whose action takes a record from the socket, handles one, or replaces it. -/
def Pc.handles : Pc → Bool
  | .run (.connect _) | .run (.receive _) | .run (.observe _ _ _) => true
  | _ => false

/-- Those whose action moves the RDT tracker. -/
def Pc.movesTracker : Pc → Bool
  | .run (.reset _) | .run (.observe _ _ _) | .bias _ .reset => true
  | _ => false

theorem Duty.Met.keep {duty : Duty} {l l' : Link} (h : duty.Met l) (htaken : l'.taken = l.taken)
    (hnewest : l'.newest = l.newest ∨ l'.newest = none) : duty.Met l' := by
  have hmem : ∀ a ∈ l'.newest, a ∈ l.newest := by
    intro a ha
    rcases hnewest with heq | heq <;> rw [heq] at ha
    · exact ha
    · cases ha
  cases duty with
  | away => trivial
  | idle =>
    intro a ha
    rw [htaken]
    exact h a (hmem a ha)
  | holding number =>
    obtain ⟨b, hb, hnumber, hfollows⟩ := h
    exact ⟨b, htaken.trans hb, hnumber, fun a ha => hfollows a (hmem a ha)⟩

namespace Link

variable {l : Link} (command : Command) (result : Except String Unit)

@[simp] theorem send_taken : (l.send command result).taken = l.taken := by
  unfold send; split_ifs <;> rfl

@[simp] theorem send_newest : (l.send command result).newest = l.newest := by
  unfold send; split_ifs <;> rfl

@[simp] theorem send_handled : (l.send command result).handled = l.handled := by
  unfold send; split_ifs <;> rfl

@[simp] theorem sendRestart_taken : (l.sendRestart result).taken = l.taken := by
  unfold sendRestart; split_ifs <;> simp

@[simp] theorem sendRestart_newest : (l.sendRestart result).newest = l.newest := by
  unfold sendRestart; split_ifs <;> simp

@[simp] theorem sendRestart_handled : (l.sendRestart result).handled = l.handled := by
  unfold sendRestart; split_ifs <;> simp

end Link

/-- Away from these points the link keeps what was taken and what was handled. -/
theorem Pc.link_keeps {p : Pc} {choice : Choice} {c : Impl} {l l' : Link}
    (hlink : p.link choice c l = some l') (hhandles : p.handles = false) :
    l'.taken = l.taken ∧ l'.handled = l.handled ∧ (l'.newest = l.newest ∨ l'.newest = none) ∧
      (p.movesTracker = false → l'.newest = l.newest) := by
  unfold Pc.link at hlink
  split at hlink
  case h_1 | h_5 | h_6 => cases hhandles
  case h_3 | h_4 =>
    cases hlink
    exact ⟨rfl, rfl, .inr rfl, fun h => by cases h⟩
  all_goals
    cases hlink
    first
      | exact ⟨rfl, rfl, .inl rfl, fun _ => rfl⟩
      | simp
      | split_ifs <;> simp

/-- What was handled stays in the list. -/
theorem Pc.link_handled {p : Pc} {choice : Choice} {c : Impl} {l l' : Link}
    (hlink : p.link choice c l = some l') : l.handled <:+ l'.handled := by
  cases hhandles : p.handles with
  | false => rw [(Pc.link_keeps hlink hhandles).2.1]
  | true =>
    unfold Pc.handles at hhandles
    split at hhandles
    · cases hlink
      split_ifs <;> exact List.suffix_refl _
    · simp only [Pc.link] at hlink
      split at hlink
      · rcases Link.receive_cases hlink with ⟨-, rfl⟩ | ⟨d, rest, -, -, rfl⟩ <;> exact List.suffix_refl _
      · cases hlink
        exact List.suffix_refl _
    · cases hlink
      unfold Link.handle
      split
      · exact List.suffix_refl _
      · exact List.suffix_cons _ _
    · cases hhandles

section

variable {p q : Pc} {t : Tid} {choice : Choice} {s : Shared} {e : Effect Shared Pc}

theorem Pc.duty_of_isCall (h : p.isCall = true) :
    p.duty = if p.ctx.isCallback then .idle else .away := by
  cases p with
  | run pc => cases pc <;> first | rfl | cases h
  | _ => rfl

theorem RunPc.afterRecord_duty (l : Loop) (outcome : Option SessionResult) :
    (afterRecord l outcome).duty = .away ∨ (afterRecord l outcome).duty = .idle := by
  cases outcome
  · exact .inr rfl
  · exact .inl rfl

/-- Nothing is taken or handled at the other points of `run`. -/
theorem RunPc.step_duty {pc pc' : RunPc} {c c' : Impl} {wire wire' : Wire}
    (h : pc.step choice c wire = some (c', wire', pc')) (hhandles : (Pc.run pc).handles = false)
    (hreset : ∀ b, pc ≠ .reset b) : pc'.duty = .away ∨ pc'.duty = pc.duty := by
  have hafter := afterRecord_duty
  cases pc with
  | connect | receive | observe => cases hhandles
  | reset b => exact absurd rfl (hreset b)
  | received l data =>
    simp only [step, stepOpen, stepLoop, stepClose, Option.none_or, Option.or_none] at h
    simp only [duty]
    cases hdecode : decodeRecord data <;> grind [duty, endSession]
  | _ =>
    simp only [step, stepOpen, stepLoop, stepClose, Option.none_or, Option.or_none, Option.map_none] at h
    grind [duty, endSession]

theorem action_duty (h : p.action t choice s = some e) (hhandles : p.handles = false)
    (hreset : ∀ b, p ≠ .run (.reset b)) : e.next.duty = .away ∨ e.next.duty = p.duty := by
  by_cases hrun : ∃ pc, p = .run pc
  · obtain ⟨pc, rfl⟩ := hrun
    rcases runStep_cases h with ⟨k, call, rfl, hbegin⟩ | ⟨impl, sessions, next, hstep, rfl⟩
    · obtain ⟨hctx, hcall⟩ := beginCall_ctx hbegin
      rw [Pc.duty_of_isCall hcall, hctx]
      exact .inr rfl
    · exact RunPc.step_duty hstep hhandles fun b heq => hreset b (congrArg Pc.run heq)
  · obtain ⟨hctx, hcall⟩ := action_ctx h fun pc heq => hrun ⟨pc, heq⟩
    have hp : p.isCall = true := by
      cases p with
      | run pc => exact absurd ⟨pc, rfl⟩ hrun
      | _ => rfl
    rw [Pc.duty_of_isCall hcall, Pc.duty_of_isCall hp, hctx]
    exact .inr rfl

theorem passes_duty (h : program.Passes p q s) : q.duty = .away ∨ q.duty = p.duty := by
  cases goesOn_of_passes h with
  | deliveredLifecycle k => exact RunPc.afterRecord_duty _ _
  | _ => exact .inr rfl

theorem applyConfiguration_rdtSequence (c : Impl) (configuration : SensorConfiguration) :
    (c.applyConfiguration configuration).rdtSequence = c.rdtSequence := by
  obtain ⟨_, _, h⟩ := c.applyConfiguration_frame configuration
  rw [h]

theorem publishFault_rdtSequence (c : Impl) (code : FaultCode) (message : String) :
    (c.publishFault code message).rdtSequence = c.rdtSequence := by
  unfold Impl.publishFault
  split_ifs <;> rfl

/-- Away from these points the RDT tracker stays. -/
theorem action_rdtSequence (h : p.action t choice s = some e) (hmoves : p.movesTracker = false) :
    e.shared.impl.rdtSequence = s.impl.rdtSequence := by
  have hpublish := publishFault_rdtSequence s.impl
  have happly := applyConfiguration_rdtSequence s.impl
  cases p with
  | start ctx callback pc =>
    cases pc <;> simp only [Pc.action, startStep] at h <;>
      grind [Impl.clearLastDelivery, Impl.beginGeneration, Impl.restoreData, Impl.resetFault, Shared.leave]
  | stop ctx caller pc =>
    cases pc <;> cases caller <;> simp only [Pc.action, stopStep] at h <;>
      grind [Impl.setSessionStarted, Impl.shutdownTransport, Impl.setState, Shared.leave]
  | run pc =>
    rcases runStep_cases h with ⟨k, call, -, hbegin⟩ | ⟨impl, sessions, next, hstep, rfl⟩
    · rw [beginCall_impl hbegin]
    · cases pc with
      | reset | observe => cases hmoves
      | _ =>
        simp only [RunPc.step, RunPc.stepOpen, RunPc.stepLoop, RunPc.stepClose, Option.none_or,
          Option.or_none, Option.map_none] at hstep
        grind [Impl.setState, Impl.countTimeout, Impl.countMalformed, Impl.clearMalformed,
          Impl.enterBackoff, Impl.closeSession, Impl.closeTransport, Impl.connectTransport,
          Impl.setSessionStarted, Impl.setFault, Impl.recordCallbackError, Impl.deliverSample]
  | _ =>
    rcases action_impl h rfl with himpl | ⟨⟨ctx, heq⟩, -⟩ | ⟨now, -, himpl⟩
    · rw [himpl]
    · rw [heq] at hmoves
      cases hmoves
    · rw [himpl]
      rfl

end

/-! ## The baseline -/

/-- The record that is taken is of the stream of the newest one, or that one is not ahead of a stream
that starts at 1. -/
def Link.Clear (l : Link) : Prop :=
  ∀ a ∈ l.newest, ∀ b ∈ l.taken, a.epoch ≠ b.epoch → a.number = 0 ∨ 0x80000001 < a.number

instance (l : Link) : Decidable l.Clear :=
  inferInstanceAs (Decidable (∀ a ∈ l.newest, ∀ b ∈ l.taken, a.epoch ≠ b.epoch →
    a.number = 0 ∨ 0x80000001 < a.number))

/-- Behind a baseline, a record is dropped unless it is ahead of it by less than half a ring. -/
theorem observe_dropped_iff {t : RdtSequenceTracker} (h : t.hasLast = true) (current : UInt32) :
    ((t.observe current).1.kind.dropped = false ↔
        current - t.previous ≠ 0 ∧ current - t.previous < 0x80000000) ∧
      ((t.observe current).1.kind.dropped = false →
        (t.observe current).2 = { hasLast := true, previous := current }) := by
  simp only [RdtSequenceTracker.observe, h, Bool.not_true, Bool.false_eq_true, if_false]
  split_ifs <;> simp_all [SequenceKind.dropped]

/-- The first number of a stream against a baseline of another one. -/
theorem one_sub_iff (m : UInt32) :
    (1 - m ≠ 0 ∧ 1 - m < 0x80000000) ↔ m = 0 ∨ 0x80000001 < m := by
  simp only [ne_eq, ← UInt32.toNat_inj, UInt32.lt_iff_toNat_lt, UInt32.toNat_sub]
  have hm := m.toNat_lt
  simp
  omega

/-- A record that follows the newest one is dropped exactly if the baseline is not clear. -/
theorem Link.Tracked.observe {l : Link} {t : RdtSequenceTracker} (h : l.Tracked t) {b : Tag UInt32}
    (htaken : l.taken = some b) (hfollows : ∀ a ∈ l.newest, a.Follows b) :
    ((t.observe b.number).1.kind.dropped = false ↔ l.Clear) ∧
      (l.Clear → (t.observe b.number).2 = { hasLast := true, previous := b.number }) := by
  cases hnewest : l.newest with
  | none =>
    have hlast : t.hasLast = false := by rw [h.hasLast, hnewest]; rfl
    have hclear : l.Clear := fun a ha => by rw [hnewest] at ha; cases ha
    rw [RdtSequenceTracker.observe_fresh hlast]
    exact ⟨⟨fun _ => hclear, fun _ => rfl⟩, fun _ => rfl⟩
  | some a =>
    have hmem : a ∈ l.newest := hnewest
    have hlast : t.hasLast = true := by rw [h.hasLast, hnewest]; rfl
    obtain ⟨hdropped, hmoves⟩ := observe_dropped_iff hlast b.number
    have hclear : l.Clear ↔ (a.epoch ≠ b.epoch → a.number = 0 ∨ 0x80000001 < a.number) := by
      simp [Link.Clear, hnewest, htaken]
    rw [h.previous a hmem] at hdropped
    have hiff : (t.observe b.number).1.kind.dropped = false ↔ l.Clear := by
      rw [hdropped, hclear]
      rcases hfollows a hmem with rfl | ⟨hlt, hfirst⟩
      · have hone : a.next.number - a.number = 1 := by
          change a.number + 1 - a.number = 1
          rw [UInt32.add_comm, UInt32.add_sub_cancel]
        rw [hone]
        simp [Tag.next]
      · have hnumber : b.number = 1 := by rw [hfirst]; rfl
        rw [hnumber, one_sub_iff]
        simp [hlt.ne]
    exact ⟨hiff, fun hc => hmoves (hiff.mpr hc)⟩

/-! ## Every run of the bench -/

/-- What holds as long as every step was clear. -/
structure Bench.Sound (b : Bench) : Prop where
  lawful : b.link.Lawful
  duty : ∀ t, (b.client.threads t).pc.duty.Met b.link
  tracked : b.link.Tracked b.client.shared.impl.rdtSequence
  kept : ∀ o ∈ b.link.handled, o.kind.dropped = false

def Pc.observes : Pc → Bool
  | .run (.observe _ _ _) => true
  | _ => false

/-- A step that handles a record finds the baseline clear. -/
def Bench.Clear (b : Bench) : Event → Prop
  | .client i => (b.client.threads i.tid).pc.observes = true → b.link.Clear
  | .command | .record _ => True

section

variable {p : Pc} {t : Tid} {choice : Choice} {s : Shared} {e : Effect Shared Pc} {l l' : Link}

/-- What is known after an action. -/
structure Moved (e : Effect Shared Pc) (l' : Link) : Prop where
  duty : e.next.duty.Met l'
  tracked : l'.Tracked e.shared.impl.rdtSequence
  kept : ∀ o ∈ l'.handled, o.kind.dropped = false

theorem Duty.met_of_away {duty : Duty} (h : duty = .away) (l : Link) : duty.Met l := by
  rw [h]
  trivial

theorem Link.Tracked.forget (l : Link) (t : RdtSequenceTracker) : l.forget.Tracked t.reset :=
  ⟨rfl, fun a ha => by cases ha⟩

theorem Link.Tracked.keep {t t' : RdtSequenceTracker} (h : l.Tracked t) (ht : t' = t)
    (hnewest : l'.newest = l.newest) : l'.Tracked t' := by
  subst ht
  exact ⟨by rw [hnewest]; exact h.hasLast, by rw [hnewest]; exact h.previous⟩

/-- A new socket. -/
theorem connect_moved {b : Seconds} (h : runStep (.connect b) t choice s = some e)
    (hlink : (Pc.run (.connect b)).link choice s.impl l = some l')
    (htracked : l.Tracked s.impl.rdtSequence) (hkept : ∀ o ∈ l.handled, o.kind.dropped = false) :
    Moved e l' := by
  have hsame := action_rdtSequence (p := .run (.connect b)) (t := t) h rfl
  have hdata : l'.newest = l.newest ∧ l'.handled = l.handled := by
    cases hlink
    split_ifs <;> exact ⟨rfl, rfl⟩
  have haway : e.next.duty = .away := by
    rcases runStep_cases h with ⟨k, call, hk, -⟩ | ⟨impl, sessions, next, hstep, rfl⟩
    · cases hk
    · simp only [RunPc.step, RunPc.stepOpen, RunPc.stepLoop, RunPc.stepClose] at hstep
      cases choice <;> cases hstep <;> rfl
  exact ⟨Duty.met_of_away haway l', htracked.keep hsame hdata.1, by rw [hdata.2]; exact hkept⟩

/-- The oldest record in the socket comes into the hands of the worker. -/
theorem receive_moved {k : Loop} (h : runStep (.receive k) t choice s = some e)
    (hlink : (Pc.run (.receive k)).link choice s.impl l = some l') (hlawful : l.Lawful)
    (hmet : (Pc.run (.receive k)).duty.Met l) (htracked : l.Tracked s.impl.rdtSequence)
    (hkept : ∀ o ∈ l.handled, o.kind.dropped = false) : Moved e l' := by
  have hsame := action_rdtSequence (p := .run (.receive k)) (t := t) h rfl
  rcases runStep_cases h with ⟨_, call, hk, -⟩ | ⟨impl, sessions, next, hstep, rfl⟩
  · cases hk
  simp only [RunPc.step, RunPc.stepOpen, RunPc.stepLoop, RunPc.stepClose] at hstep
  cases choice with
  | received data =>
    cases hstep
    rcases Link.receive_cases hlink with ⟨rfl, rfl⟩ | ⟨d, rest, hpackets, rfl, rfl⟩
    · exact ⟨hmet, htracked.keep hsame rfl, hkept⟩
    · refine ⟨?_, htracked.keep hsame rfl, hkept⟩
      obtain ⟨record, hdecode, hnumber⟩ := d.decodes
      have hduty : (Pc.run (.received k d.data)).duty = .holding record.rdtSequence := by
        simp only [Pc.duty, RunPc.duty, hdecode]
      rw [hduty]
      refine ⟨d.tag, rfl, hnumber.symm, fun a ha => ?_⟩
      have hordered := hlawful.ordered
      rw [hpackets, hmet a ha] at hordered
      exact hordered.follows
  | fail what =>
    cases hstep
    cases hlink
    exact ⟨trivial, htracked.keep hsame rfl, hkept⟩
  | _ => cases hstep

/-- How the record in the hands of the worker is classified. -/
theorem observe_link {k : Loop} {record : RawRecord} {receivedAt : TimePoint}
    (hlink : (Pc.run (.observe k record receivedAt)).link choice s.impl l = some l')
    (hmet : (Pc.run (.observe k record receivedAt)).duty.Met l)
    (htracked : l.Tracked s.impl.rdtSequence) :
    ∃ b, l.taken = some b ∧ b.number = record.rdtSequence ∧
      l' =
        { l with
          newest := some b
          handled := ⟨b, (s.impl.rdtSequence.observe record.rdtSequence).1.kind⟩ :: l.handled } ∧
      ((s.impl.rdtSequence.observe record.rdtSequence).1.kind.dropped = false ↔ l.Clear) ∧
      (l.Clear → (s.impl.rdtSequence.observe record.rdtSequence).2 =
        { hasLast := true, previous := record.rdtSequence }) := by
  obtain ⟨b, htaken, hnumber, hfollows⟩ := hmet
  obtain ⟨hdropped, htracker⟩ := htracked.observe htaken hfollows
  rw [hnumber] at hdropped htracker
  refine ⟨b, htaken, hnumber, ?_, hdropped, htracker⟩
  cases hlink
  simp only [Link.handle, htaken]

/-- The record in the hands of the worker is handled. -/
theorem observe_moved {k : Loop} {record : RawRecord} {receivedAt : TimePoint}
    (h : runStep (.observe k record receivedAt) t choice s = some e)
    (hlink : (Pc.run (.observe k record receivedAt)).link choice s.impl l = some l')
    (hmet : (Pc.run (.observe k record receivedAt)).duty.Met l)
    (htracked : l.Tracked s.impl.rdtSequence) (hkept : ∀ o ∈ l.handled, o.kind.dropped = false)
    (hclear : l.Clear) : Moved e l' := by
  obtain ⟨b, htaken, hnumber, rfl, hdropped, htracker⟩ := observe_link hlink hmet htracked
  have hrdt : e.shared.impl.rdtSequence = (s.impl.rdtSequence.observe record.rdtSequence).2 ∧
      (e.next.duty = .away ∨ e.next.duty = .idle) := by
    rcases runStep_cases h with ⟨_, call, hk, -⟩ | ⟨impl, sessions, next, hstep, rfl⟩
    · cases hk
    obtain ⟨rfl, rfl⟩ := step_observe hstep
    have htrackers := s.impl.observeRecord_trackers record receivedAt
    rw [← Impl.prepareRecord_fst] at htrackers
    refine ⟨htrackers.1, ?_⟩
    -- the record is handled, whatever is made of it
    cases (s.impl.prepareRecord record receivedAt).2 with
    | raised what => exact .inl rfl
    | done outcome => exact RunPc.afterRecord_duty k outcome
    | invoke sample outcome => exact .inr rfl
  refine ⟨?_, ?_, ?_⟩
  · rcases hrdt.2 with haway | hidle
    · exact Duty.met_of_away haway _
    · rw [hidle]
      rintro a ha
      exact htaken.trans ha
  · rw [hrdt.1, htracker hclear]
    refine ⟨rfl, fun a ha => ?_⟩
    obtain rfl : b = a := Option.some.inj ha
    exact hnumber.symm
  · rintro o (_ | ⟨_, ho⟩)
    · exact hdropped.mpr hclear
    · exact hkept o ho

/-- Every action keeps the duty of its thread, and the baseline. -/
theorem action_moved (h : p.action t choice s = some e) (hlink : p.link choice s.impl l = some l')
    (hlawful : l.Lawful) (hmet : p.duty.Met l) (htracked : l.Tracked s.impl.rdtSequence)
    (hkept : ∀ o ∈ l.handled, o.kind.dropped = false) (hclear : p.observes = true → l.Clear) :
    Moved e l' := by
  cases hhandles : p.handles with
  | true =>
    cases p with
    | run pc =>
      cases pc with
      | connect b => exact connect_moved (t := t) h hlink htracked hkept
      | receive k => exact receive_moved (t := t) h hlink hlawful hmet htracked hkept
      | observe k record receivedAt =>
        exact observe_moved (t := t) h hlink hmet htracked hkept (hclear rfl)
      | _ => cases hhandles
    | _ => cases hhandles
  | false =>
    obtain ⟨htaken, hhandled, hnewest, hsame⟩ := Pc.link_keeps hlink hhandles
    have hkept' : ∀ o ∈ l'.handled, o.kind.dropped = false := by
      rw [hhandled]
      exact hkept
    cases hmoves : p.movesTracker with
    | false =>
      refine ⟨?_, htracked.keep (action_rdtSequence h hmoves) (hsame hmoves), hkept'⟩
      rcases action_duty h hhandles (fun b heq => by rw [heq] at hmoves; cases hmoves) with haway | heq
      · exact Duty.met_of_away haway l'
      · rw [heq]
        exact hmet.keep htaken hnewest
    | true =>
      cases p with
      | run pc =>
        cases pc with
        | reset b =>
          cases h
          cases hlink
          exact ⟨fun a ha => (by cases ha), .forget _ _, hkept'⟩
        | observe => cases hhandles
        | _ => cases hmoves
      | bias ctx pc =>
        cases pc with
        | reset =>
          cases h
          cases hlink
          exact ⟨hmet.keep rfl (.inr rfl), .forget _ _, hkept'⟩
        | _ => cases hmoves
      | _ => cases hmoves

theorem Pc.link_of_not_act (hact : ¬ ∃ takes f, p.instr = .act takes f) (c : Impl) :
    p.link choice c l = some l := by
  unfold Pc.link
  split <;> first
    | rfl
    | exact absurd ⟨_, _, rfl⟩ hact

theorem Pc.isWorker_of_handles (h : p.handles = true) : p.isWorker = true := by
  cases p with
  | run pc => cases pc <;> first | rfl | cases h
  | _ => cases h

theorem Pc.isWorker_of_duty (h : p.duty ≠ .away) : p.isWorker = true := by
  cases p with
  | run pc => cases pc <;> first | rfl | exact absurd rfl h
  | outside | deferred => exact absurd rfl h
  | start ctx | stop ctx | bias ctx | waitForFirstSample ctx | query ctx | destroy ctx =>
    cases ctx <;> first | rfl | exact absurd rfl h

end

theorem Bench.Sound.init (config : Config) : (Bench.init config).Sound where
  lawful := .init
  duty t := by
    by_cases ht : t = 0 <;> simp [Bench.init, System.init, ht, Pc.duty, Pc.ctx, Ctx.isCallback, Duty.Met]
  tracked := ⟨rfl, fun a ha => by cases ha⟩
  kept o ho := by cases ho

/-- A step of the client. -/
theorem Bench.Sound.client {config : Config} {b : Bench} {s' : System} {l' : Link} {i : Input}
    (hreach : b.client.Reachable config) (h : b.Sound) (hclear : b.Clear (.client i))
    (hlink : b.client.link i b.link = some l') (hstep : Client.Step b.client i s') :
    Bench.Sound ⟨s', l'⟩ := by
  obtain ⟨s, l⟩ := b
  obtain ⟨t, move⟩ := i
  obtain ⟨hlawful, hduty, htracked, hkept⟩ := h
  by_cases hact : ∃ takes f, (s.threads t).pc.instr = .act takes f
  · obtain ⟨takes, f, hinstr⟩ := hact
    obtain ⟨choice, e, hmove, hf, hshared, hpc, hothers⟩ := hreach.consistent.step_act hstep hinstr
    obtain ⟨-, rfl⟩ := Pc.instr_act hinstr
    change move = .go choice at hmove
    subst hmove
    have hmoved := action_moved hf hlink hlawful (hduty t) htracked hkept hclear
    refine ⟨Pc.link_lawful hlawful hlink, fun u => ?_, by rw [hshared]; exact hmoved.tracked, hmoved.kept⟩
    by_cases hut : u = t
    · subst hut
      rw [hpc]
      exact hmoved.duty
    · rcases hothers u hut with hsame | ⟨-, hspawned⟩
      · rw [hsame]
        cases hhandles : (s.threads t).pc.handles with
        | false =>
          obtain ⟨htaken, -, hnewest, -⟩ := Pc.link_keeps hlink hhandles
          exact (hduty u).keep htaken hnewest
        | true =>
          -- only the worker takes and handles records
          by_cases haway : (s.threads u).pc.duty = .away
          · exact Duty.met_of_away haway l'
          · exact absurd (hreach.workerSafe.one u t (Pc.isWorker_of_duty haway)
              (Pc.isWorker_of_handles hhandles)) hut
      · rw [spawned_run hf hspawned]
        trivial
  · have hsame : l' = l := by
      unfold System.link at hlink
      split at hlink
      · rw [Pc.link_of_not_act hact] at hlink
        exact (Option.some.inj hlink).symm
      · exact (Option.some.inj hlink).symm
    subst hsame
    refine ⟨hlawful, fun u => ?_, ?_, hkept⟩
    · refine point_of_not_act (P := fun p => p.duty.Met l') hstep hact (fun p q hpass hp => ?_)
        (fun _ _ _ hp => hp) (fun _ _ _ hp => hp) (hduty u)
      rcases passes_duty hpass with haway | heq
      · exact Duty.met_of_away haway l'
      · exact heq ▸ hp
    · rw [(shared_of_not_act hstep hact).1]
      exact htracked

/-- A command arrives, or the sensor sends a record. -/
theorem Bench.Sound.travel {b : Bench} {l' : Link} (h : b.Sound) (hlawful : l'.Lawful)
    (htaken : l'.taken = b.link.taken) (hnewest : l'.newest = b.link.newest)
    (hhandled : l'.handled = b.link.handled) : Bench.Sound ⟨b.client, l'⟩ where
  lawful := hlawful
  duty t := (h.duty t).keep htaken (.inl hnewest)
  tracked := h.tracked.keep rfl hnewest
  kept := by
    rw [hhandled]
    exact h.kept

theorem Bench.Sound.step {config : Config} {b b' : Bench} {e : Event} (hreach : b.Reachable config)
    (h : b.Sound) (hclear : b.Clear e) (hstep : Bench.Step b e b') : b'.Sound := by
  obtain ⟨s', l'⟩ := b'
  rcases Bench.step_cases hstep with
    ⟨i, rfl, hlink, hclient⟩ | ⟨rfl, harrive, rfl⟩ | ⟨reading, rfl, hemit, rfl⟩
  · exact h.client hreach.client hclear hlink hclient
  · have hlawful := h.lawful.arrive harrive
    change b.link.arrive = some l' at harrive
    unfold Link.arrive at harrive
    split at harrive <;> cases harrive
    exact h.travel hlawful rfl rfl rfl
  · have hlawful := h.lawful.emit hemit
    obtain ⟨⟨peer, record, sensor⟩, -, rfl⟩ := Option.map_eq_some_iff.mp hemit
    exact h.travel hlawful rfl rfl rfl

/-- A run whose steps all find the baseline clear. -/
theorem Bench.Sound.runs {config : Config} {es : List Event} {b : Bench}
    (h : Runs (restrict Bench.Step Bench.Clear) (Bench.init config) es b) : b.Sound := by
  have hboth : b.Reachable config ∧ b.Sound :=
    Runs.invariant (I := fun b => b.Reachable config ∧ b.Sound)
      (fun _ _ _ hinv hstep => ⟨hinv.1.snoc hstep.2, hinv.2.step hinv.1 hstep.1 hstep.2⟩) h
      ⟨.init, .init config⟩
  exact hboth.2

instance (b : Bench) (e : Event) : Decidable (b.Clear e) :=
  match e with
  | .client i => inferInstanceAs (Decidable ((b.client.threads i.tid).pc.observes = true → b.link.Clear))
  | .command | .record _ => inferInstanceAs (Decidable True)

/-! ## Where the baseline is not clear -/

/-- What was handled stays in the list. -/
theorem Bench.step_handled {b b' : Bench} {e : Event} (hstep : Bench.Step b e b') :
    b.link.handled <:+ b'.link.handled := by
  obtain ⟨s', l'⟩ := b'
  rcases Bench.step_cases hstep with ⟨i, rfl, hlink, -⟩ | ⟨rfl, harrive, -⟩ | ⟨reading, rfl, hemit, -⟩
  · unfold System.link at hlink
    split at hlink
    · exact Pc.link_handled hlink
    · cases hlink
      exact List.suffix_refl _
  · change b.link.arrive = some l' at harrive
    unfold Link.arrive at harrive
    split at harrive <;> cases harrive
    exact List.suffix_refl _
  · obtain ⟨⟨peer, record, sensor⟩, -, rfl⟩ := Option.map_eq_some_iff.mp hemit
    exact List.suffix_refl _

/-- A step that keeps every record finds the baseline clear. -/
theorem Bench.Sound.clear {config : Config} {b b' : Bench} {e : Event}
    (hreach : b.client.Reachable config) (h : b.Sound) (hstep : Bench.Step b e b')
    (hkept : ∀ o ∈ b'.link.handled, o.kind.dropped = false) : b.Clear e := by
  cases e with
  | command | record => trivial
  | client i =>
    intro hobserves
    obtain ⟨t, move⟩ := i
    rcases Bench.step_cases hstep with ⟨_, heq, hlink, hclient⟩ | ⟨heq, -⟩ | ⟨_, heq, -⟩ <;> cases heq
    have hduty := h.duty t
    have hpc : ∃ k record receivedAt, (b.client.threads t).pc = .run (.observe k record receivedAt) := by
      change (b.client.threads t).pc.observes = true at hobserves
      unfold Pc.observes at hobserves
      split at hobserves
      · exact ⟨_, _, _, by assumption⟩
      · cases hobserves
    obtain ⟨k, record, receivedAt, hpc⟩ := hpc
    have hinstr : (b.client.threads t).pc.instr =
        .act [.record, .data] (runStep (.observe k record receivedAt)) := by rw [hpc]; rfl
    obtain ⟨choice, e, hmove, -⟩ := hreach.consistent.step_act hclient hinstr
    change move = .go choice at hmove
    subst hmove
    change (b.client.threads t).pc.link choice b.client.shared.impl b.link = some b'.link at hlink
    rw [hpc] at hduty hlink
    obtain ⟨a, -, -, hb', hdropped, -⟩ := observe_link hlink hduty h.tracked
    rw [hb'] at hkept
    exact hdropped.mp (hkept _ List.mem_cons_self)

/-- The condition is exact: a run drops no record if and only if each of its steps finds the baseline
clear. -/
theorem kept_iff_clear {config : Config} {es : List Event} {b : Bench}
    (h : Runs Bench.Step (Bench.init config) es b) :
    (∀ o ∈ b.link.handled, o.kind.dropped = false) ↔
      Runs (restrict Bench.Step Bench.Clear) (Bench.init config) es b := by
  refine ⟨?_, fun hclear => (Bench.Sound.runs hclear).kept⟩
  refine Runs.snoc_induction (motive := fun es b => (∀ o ∈ b.link.handled, o.kind.dropped = false) →
    Runs (restrict Bench.Step Bench.Clear) (Bench.init config) es b) (fun _ => .nil _) ?_ h
  intro es e b₁ b₂ hruns ih hstep hkept
  have hbefore := ih fun o ho => hkept o ((Bench.step_handled hstep).subset ho)
  have hreach : b₁.Reachable config := ⟨es, hruns⟩
  have hclear : b₁.Clear e := (Bench.Sound.runs hbefore).clear hreach.client hstep hkept
  exact hbefore.append (.single ⟨hclear, hstep⟩)

/-! ## Records that answer `bias` -/

/-- No record of a stream that `bias` started was dropped. -/
def Bench.Rebaselined (b : Bench) : Prop :=
  ∀ o ∈ b.link.handled, o.tag.epoch ∈ b.link.biased →
    o.kind = .First ∨ o.kind = .Contiguous ∨ o.kind = .Gap

theorem kept_kind_iff (kind : SequenceKind) :
    kind.dropped = false ↔ kind = .First ∨ kind = .Contiguous ∨ kind = .Gap := by
  cases kind <;> simp [SequenceKind.dropped]

theorem restarted_kept {config : Config} {es : List Event} {b : Bench}
    (h : Runs (restrict Bench.Step Bench.Clear) (Bench.init config) es b) : b.Rebaselined :=
  fun o ho _ => (kept_kind_iff o.kind).mp ((Bench.Sound.runs h).kept o ho)

/-! ## A restart with an empty socket, and one behind an old record -/

/-- Thread 1 starts the client, the worker opens a session, and the sensor streams. -/
def streamRun : List Event := openRun.map .client ++ [.command]

/-- The worker takes the record with this number and handles it. -/
def handleRun (now : TimePoint) (number : UInt32) (ft : UInt32) : List Event :=
  [go 2, go 2 (.reading now), go 2 (.received (RawRecord.pack { rdtSequence := number, ftSequence := ft })),
    go 2, go 2 (.reading now), go 2].map .client

/-- It has the callback return, and delivers the sample. -/
def deliveredRun : List Event := ([go 2, go 2 .returned] ++ steps 2 3).map .client

/-- Thread 1 calls `bias()`, which returns. -/
def biasedRun : List Event := (go 1 (.call .bias) :: steps 1 7).map .client

/-- The one record of the old stream is handled before `bias()`. -/
def drainedRun : List Event :=
  streamRun ++ [.record { ftSequence := 1 }] ++ handleRun 1 1 1 ++ deliveredRun ++ biasedRun ++
    [.command, .command, .record { ftSequence := 2 }, .record { ftSequence := 3 }] ++ handleRun 2 1 2 ++
    deliveredRun ++ handleRun 3 2 3

theorem drained_restart_kept : ∃ b,
    Runs (restrict Bench.Step Bench.Clear) (Bench.init unitConfig) drainedRun b ∧
      b.link.biased = [2] ∧
      b.link.handled = [⟨⟨2, 2⟩, .Contiguous⟩, ⟨⟨2, 1⟩, .First⟩, ⟨⟨1, 1⟩, .First⟩] ∧ b.Rebaselined := by
  have hrun : ((Library.execute (Library.restrictNext Bench.next Bench.Clear) (Bench.init unitConfig)
      drainedRun).map fun b => decide (b.link.biased = [2] ∧
        b.link.handled = [⟨⟨2, 2⟩, .Contiguous⟩, ⟨⟨2, 1⟩, .First⟩, ⟨⟨1, 1⟩, .First⟩])) = some true := by
    decide +kernel
  obtain ⟨b, hruns, hb⟩ := Library.exists_runs_of_execute hrun
  obtain ⟨hbiased, hhandled⟩ := of_decide_eq_true hb
  have hclear := hruns.mono fun _ _ _ h => Library.restrictNext_restrict h
  exact ⟨b, hclear, hbiased, hhandled, restarted_kept hclear⟩

/-- A second record of the old stream is still in the socket when `bias()` has returned. -/
def undrainedRun : List Event :=
  streamRun ++ [.record { ftSequence := 1 }, .record { ftSequence := 2 }] ++ handleRun 1 1 1 ++
    deliveredRun ++ biasedRun

/-- The worker handles it, and then the first record of the new stream. -/
def staleRun : List Event :=
  handleRun 2 2 2 ++ deliveredRun ++ [.command, .command, .record { ftSequence := 3 }] ++ handleRun 3 1 3

theorem stale_record_becomes_baseline : ∃ b b',
    Runs Bench.Step (Bench.init unitConfig) undrainedRun b ∧ b.link.biased = [2] ∧
      b.client.shared.busy = [] ∧ b.link.handled = [⟨⟨1, 1⟩, .First⟩] ∧
      Runs Bench.Step b staleRun b' ∧ ¬ b'.Rebaselined := by
  have hrun : ((Library.execute Bench.next (Bench.init unitConfig) undrainedRun).map fun b =>
      decide ((b.link.biased = [2] ∧ b.client.shared.busy = [] ∧ b.link.handled = [⟨⟨1, 1⟩, .First⟩]) ∧
        ((Library.execute Bench.next b staleRun).map fun b =>
          decide (b.link.biased = [2] ∧ ⟨⟨2, 1⟩, .OutOfOrder⟩ ∈ b.link.handled)) = some true)) =
      some true := by
    decide +kernel
  obtain ⟨b, hruns, hb⟩ := Library.exists_runs_of_execute hrun
  obtain ⟨⟨hbiased, hbusy, hhandled⟩, hlater⟩ := of_decide_eq_true hb
  obtain ⟨b', hruns', hb'⟩ := Library.exists_runs_of_execute hlater
  obtain ⟨hbiased', hdropped⟩ := of_decide_eq_true hb'
  refine ⟨b, b', hruns, hbiased, hbusy, hhandled, hruns', fun hkept => ?_⟩
  have hkind := hkept _ hdropped (by rw [hbiased']; exact List.mem_singleton_self 2)
  simp at hkind

end NetFT.Client
