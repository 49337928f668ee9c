/-
# NetFT.Descriptors — the descriptors of `UdpTransport` (`detail/udp_transport_posix.cpp`).

`connect` opens a descriptor for one address after another and stores the first that connects, under the
mutex.  `receive` copies the stored descriptor under the mutex and then polls and reads the copy without it,
while the kernel gives a closed descriptor out again to anybody.  The model has one transport, any number of
threads that call it at the same time, and a kernel whose other descriptors come and go.

* **`descriptors_accounted`**: in every interleaving each descriptor that was opened stands in the transport
  or in one call of `connect` until it is closed, once; none is lost and no foreign one is closed.
* **`receive_ownDescriptor`**: if one thread alone connects, receives and closes, no call ever touches or
  closes a descriptor that is not the transport's own.
-/
import NetFT.Library.Handles
import NetFT.Library.Transition
import NetFT.Transport

namespace NetFT.UdpTransport

set_option autoImplicit false

open Library (Handles Runs Reachable stepOf restrict execute)

/-! ## The transport and its callers -/

/-- How a call ended, an exception with its text. -/
inductive Outcome where
  | returned (count : ℕ)
  | threw (what : String)
  deriving DecidableEq, Repr

/-- Where a thread stands: outside, in the loop of `connect` over the addresses (with the number that are
left and the last error), or in `receive` with its copy of the descriptor. -/
inductive Call where
  | out (last : Option Outcome)
  | addresses (left : ℕ) (lastError : String)
  | opened (descriptor left : ℕ)
  | refused (descriptor left : ℕ) (lastError : String)
  | connected (descriptor : ℕ)
  | waiting (descriptor : ℕ) (deadline : TimePoint)
  | polled (descriptor : ℕ) (invalid : Bool)
  | receiving (descriptor : ℕ)
  deriving DecidableEq, Repr

/-- How one `poll` of a call returns. -/
inductive PollResult where
  | expired
  | failed (what : String)
  | interrupted (now : TimePoint)
  | ready (invalid : Bool)
  deriving DecidableEq, Repr

/-- A step of a thread, with what the system calls in it give. -/
inductive Action where
  | resolve (addresses : Except String ℕ)
  | socket (descriptor : Except String ℕ)
  | connect (result : Except String Unit)
  | closeRefused
  | giveUp
  | store
  | send (sent : Except String ℕ)
  | receive (timeout : Seconds) (now : TimePoint)
  | poll (result : PollResult)
  | check
  | recv (result : RecvResult)
  | shutdown
  | close

/-- A step of a run. -/
inductive Input where
  | call (tid : ℕ) (action : Action)
  /-- Whoever else runs on the machine opens and closes descriptors. -/
  | others (descriptors : Finset ℕ)

/-- The transport, the kernel and the calls. -/
structure State where
  socket : Option ℕ := none
  shutdownRequested : Bool := false
  kernel : Handles ℕ := {}
  calls : ℕ → Call := fun _ => .out none

/-- The bytes of a request. -/
def requestSize : ℕ := 8

/-- The text of `strerror(0)`, which is left when there is no address. -/
def noError : String := "Success"

variable {s s' : State} {tid user d : ℕ} {action : Action}

namespace State

def goto (s : State) (tid : ℕ) (call : Call) : State :=
  { s with calls := Function.update s.calls tid call }

def finish (s : State) (tid : ℕ) (outcome : Outcome) : State := s.goto tid (.out (some outcome))

/-- A system call on a descriptor. -/
def use (s : State) (d : ℕ) : State := { s with kernel := s.kernel.use d }

def closeDescriptor (s : State) (d : ℕ) : State := { s with kernel := s.kernel.release d }

/-- What `close` and the end of `connect` do to the stored descriptor. -/
def closeSocket (s : State) : State :=
  match s.socket with
  | none => s
  | some d => { s.closeDescriptor d with socket := none }

/-- What a step of a thread does, if it stands where it can be taken. -/
def act (s : State) (tid : ℕ) (action : Action) : Option State :=
  match s.calls tid, action with
  -- `connect`
  | .out _, .resolve (.error what) => some (s.finish tid (.threw ("failed to resolve sensor: " ++ what)))
  | .out _, .resolve (.ok addresses) => some (s.goto tid (.addresses addresses noError))
  | .addresses (left + 1) _, .socket (.error what) => some (s.goto tid (.addresses left what))
  | .addresses (left + 1) _, .socket (.ok d) =>
    if s.kernel.Free d then
      some ({ s with kernel := s.kernel.acquire d }.goto tid (.opened d left))
    else none
  | .opened d _, .connect (.ok ()) => some ((s.use d).goto tid (.connected d))
  | .opened d left, .connect (.error what) => some ((s.use d).goto tid (.refused d left what))
  | .refused d left what, .closeRefused => some ((s.closeDescriptor d).goto tid (.addresses left what))
  | .addresses 0 what, .giveUp =>
    some (s.finish tid (.threw ("failed to connect UDP socket: " ++ what)))
  | .connected d, .store =>
    some ({ s.closeSocket with socket := some d, shutdownRequested := false }.finish tid (.returned 0))
  -- `send`
  | .out _, .send sent =>
    match s.socket with
    | none => some (s.finish tid (.threw "UDP socket is not connected"))
    | some d =>
      match sent with
      | .error what => some ((s.use d).finish tid (.threw ("failed to send UDP request: " ++ what)))
      | .ok sent =>
        if sent = requestSize then some ((s.use d).finish tid (.returned 0))
        else some ((s.use d).finish tid (.threw "short UDP request write"))
  -- `receive`
  | .out _, .receive timeout now =>
    match s.socket with
    | none => some (s.finish tid (.threw "UDP socket is not connected"))
    | some d =>
      if s.shutdownRequested then some (s.finish tid (.returned 0))
      else
        match checkedDeadline now timeout with
        | .error what => some (s.finish tid (.threw what))
        | .ok deadline => some (s.goto tid (.waiting d deadline))
  | .waiting d deadline, .poll result =>
    match result with
    | .expired => some ((s.use d).finish tid (.returned 0))
    | .failed what => some ((s.use d).finish tid (.threw ("failed to wait for UDP record: " ++ what)))
    | .interrupted now =>
      if deadline ≤ now then some ((s.use d).finish tid (.returned 0)) else some (s.use d)
    | .ready invalid => some ((s.use d).goto tid (.polled d invalid))
  | .polled d invalid, .check =>
    if s.shutdownRequested then some (s.finish tid (.returned 0))
    else if invalid then some (s.finish tid (.threw "UDP socket became invalid"))
    else some (s.goto tid (.receiving d))
  | .receiving d, .recv result =>
    match result with
    | .received data => some ((s.use d).finish tid (.returned data.length))
    | .interrupted => some ((s.use d).finish tid (.returned 0))
    | .failed what => some ((s.use d).finish tid (.threw ("failed to receive UDP record: " ++ what)))
  -- `shutdown` and `close`
  | .out _, .shutdown =>
    match s.socket with
    | none => some ({ s with shutdownRequested := true }.finish tid (.returned 0))
    | some d => some ({ s.use d with shutdownRequested := true }.finish tid (.returned 0))
  | .out _, .close => some ({ s.closeSocket with shutdownRequested := true }.finish tid (.returned 0))
  | _, _ => none

/-- One step of a thread, or of the rest of the machine. -/
def next (s : State) : Input → Option State
  | .call tid action => s.act tid action
  | .others descriptors =>
    if ∀ d ∈ s.kernel.ours, d ∉ descriptors then
      some { s with kernel := s.kernel.setOthers descriptors }
    else none

/-! ## Where the descriptors stand -/

end State

/-- The descriptor that only this call of `connect` knows. -/
def Call.holds : Call → Option ℕ
  | .opened d _ | .refused d _ _ | .connected d => some d
  | _ => none

/-- The copy that `receive` works on. -/
def Call.copy : Call → Option ℕ
  | .waiting d _ | .polled d _ | .receiving d => some d
  | _ => none

namespace State

/-- The places for a descriptor: the stored one, and one in every call. -/
def slots (s : State) : Option ℕ → Option ℕ
  | none => s.socket
  | some tid => (s.calls tid).holds

theorem slots_update {call : Call} (hcalls : s'.calls = Function.update s.calls tid call) :
    s'.slots = Function.update (Function.update s.slots (some tid) call.holds) none s'.socket := by
  funext place
  cases place with
  | none =>
    rw [Function.update_self]
    rfl
  | some t =>
    rw [Function.update_of_ne (Option.some_ne_none t)]
    by_cases heq : t = tid
    · subst heq
      rw [Function.update_self]
      show (s'.calls t).holds = _
      rw [hcalls, Function.update_self]
    · rw [Function.update_of_ne (by simpa using heq)]
      show (s'.calls t).holds = (s.calls t).holds
      rw [hcalls, Function.update_of_ne heq]

end State

/-- The thread is inside `connect` or `receive`. -/
def Call.inside : Call → Bool
  | .out _ => false
  | _ => true

theorem Call.inside_of_holds {call : Call} {d : ℕ} (h : call.holds = some d) : call.inside = true := by
  cases call <;> first | rfl | cases h

theorem Call.inside_of_copy {call : Call} {d : ℕ} (h : call.copy = some d) : call.inside = true := by
  cases call <;> first | rfl | cases h

/-- The beginning of `connect`, `receive` and `close`. -/
def Action.exclusive : Action → Bool
  | .resolve _ | .receive _ _ | .close => true
  | _ => false

namespace State

/-- What a step of a thread does: its call afterwards, the stored descriptor and the kernel. -/
inductive Changes (s : State) (tid : ℕ) (action : Action) (call : Call) :
    Option ℕ → Handles ℕ → Prop where
  | keeps (hholds : call.holds = (s.calls tid).holds)
      (hcopy : call.copy = none ∨ call.copy = (s.calls tid).copy ∨ call.copy = s.socket) :
      Changes s tid action call s.socket s.kernel
  | uses (d : ℕ)
      (huse : (s.calls tid).holds = some d ∨ (s.calls tid).copy = some d ∨ s.socket = some d)
      (hholds : call.holds = (s.calls tid).holds)
      (hcopy : call.copy = none ∨ call.copy = (s.calls tid).copy ∨ call.copy = s.socket) :
      Changes s tid action call s.socket (s.kernel.use d)
  | opens (d : ℕ) (hfree : s.kernel.Free d) (hbefore : (s.calls tid).holds = none)
      (hholds : call.holds = some d) (hcopy : call.copy = none) :
      Changes s tid action call s.socket (s.kernel.acquire d)
  | drops (d : ℕ) (hbefore : (s.calls tid).holds = some d) (hholds : call.holds = none)
      (hcopy : call.copy = none) : Changes s tid action call s.socket (s.kernel.release d)
  | stores (d : ℕ) (hbefore : (s.calls tid).holds = some d) (hholds : call.holds = none)
      (hcopy : call.copy = none) : Changes s tid action call (some d) s.closeSocket.kernel
  | closes (hbefore : (s.calls tid).holds = none) (hholds : call.holds = none)
      (hcopy : call.copy = none) (hexclusive : action.exclusive = true) :
      Changes s tid action call none s.closeSocket.kernel

theorem closeSocket_socket (s : State) : s.closeSocket.socket = none := by
  cases h : s.socket with
  | none => rw [closeSocket, h]; exact h
  | some d => rw [closeSocket, h]

theorem closeSocket_calls (s : State) : s.closeSocket.calls = s.calls := by
  unfold closeSocket
  split <;> rfl

/-- A step of a thread is one of these. -/
def Moves (s : State) (tid : ℕ) (action : Action) (s' : State) : Prop :=
  ∃ call, s'.calls = Function.update s.calls tid call ∧
    (call.inside = true → (s.calls tid).inside = true ∨ action.exclusive = true) ∧
    Changes s tid action call s'.socket s'.kernel

theorem Moves.finish {outcome : Outcome} (hholds : (s.calls tid).holds = none) :
    s.Moves tid action (s.finish tid outcome) :=
  ⟨_, rfl, nofun, .keeps hholds.symm (.inl rfl)⟩

theorem Moves.useFinish {outcome : Outcome} (hholds : (s.calls tid).holds = none)
    (huse : (s.calls tid).copy = some d ∨ s.socket = some d) :
    s.Moves tid action ((s.use d).finish tid outcome) :=
  ⟨_, rfl, nofun, .uses d (.inr huse) hholds.symm (.inl rfl)⟩

/-- Every branch of every call, by what it does. -/
theorem moves_of_act (h : s.act tid action = some s') : s.Moves tid action s' := by
  unfold act at h
  split at h
  case h_1 hcall =>
    cases h
    exact .finish (by rw [hcall]; rfl)
  case h_2 hcall =>
    cases h
    exact ⟨_, rfl, fun _ => .inr rfl, .keeps (by rw [hcall]; rfl) (.inl rfl)⟩
  case h_3 hcall =>
    cases h
    exact ⟨_, rfl, fun _ => .inl (by rw [hcall]; rfl), .keeps (by rw [hcall]; rfl) (.inl rfl)⟩
  case h_4 d hcall =>
    split_ifs at h with hfree
    cases h
    exact ⟨_, rfl, fun _ => .inl (by rw [hcall]; rfl), .opens d hfree (by rw [hcall]; rfl) rfl rfl⟩
  case h_5 d left hcall =>
    cases h
    exact ⟨_, rfl, fun _ => .inl (by rw [hcall]; rfl),
      .uses d (.inl (by rw [hcall]; rfl)) (by rw [hcall]; rfl) (.inl rfl)⟩
  case h_6 d left what hcall =>
    cases h
    exact ⟨_, rfl, fun _ => .inl (by rw [hcall]; rfl),
      .uses d (.inl (by rw [hcall]; rfl)) (by rw [hcall]; rfl) (.inl rfl)⟩
  case h_7 d left what hcall =>
    cases h
    exact ⟨_, rfl, fun _ => .inl (by rw [hcall]; rfl), .drops d (by rw [hcall]; rfl) rfl rfl⟩
  case h_8 hcall =>
    cases h
    exact .finish (by rw [hcall]; rfl)
  case h_9 d hcall =>
    cases h
    refine ⟨.out (some (.returned 0)), ?_, nofun, .stores d (by rw [hcall]; rfl) rfl rfl⟩
    show Function.update s.closeSocket.calls tid _ = _
    rw [closeSocket_calls]
  case h_10 hcall =>
    have hholds : (s.calls tid).holds = none := by rw [hcall]; rfl
    split at h
    · cases h
      exact .finish hholds
    · rename_i d hsocket
      split at h
      · cases h
        exact .useFinish hholds (.inr hsocket)
      · split_ifs at h <;> cases h <;> exact .useFinish hholds (.inr hsocket)
  case h_11 timeout now hcall =>
    have hholds : (s.calls tid).holds = none := by rw [hcall]; rfl
    split at h
    · cases h
      exact .finish hholds
    · rename_i d hsocket
      split_ifs at h
      · cases h
        exact .finish hholds
      · split at h
        · cases h
          exact .finish hholds
        · cases h
          exact ⟨_, rfl, fun _ => .inr rfl, .keeps hholds.symm (.inr (.inr hsocket.symm))⟩
  case h_12 d deadline result hcall =>
    have hholds : (s.calls tid).holds = none := by rw [hcall]; rfl
    have hcopy : (s.calls tid).copy = some d := by rw [hcall]; rfl
    split at h
    · cases h
      exact .useFinish hholds (.inl hcopy)
    · cases h
      exact .useFinish hholds (.inl hcopy)
    · split_ifs at h
      · cases h
        exact .useFinish hholds (.inl hcopy)
      · cases h
        exact ⟨s.calls tid, (Function.update_eq_self tid s.calls).symm, .inl,
          .uses d (.inr (.inl hcopy)) rfl (.inr (.inl rfl))⟩
    · cases h
      exact ⟨_, rfl, fun _ => .inl (by rw [hcall]; rfl),
        .uses d (.inr (.inl hcopy)) hholds.symm (.inr (.inl hcopy.symm))⟩
  case h_13 d invalid hcall =>
    have hholds : (s.calls tid).holds = none := by rw [hcall]; rfl
    split_ifs at h
    · cases h
      exact .finish hholds
    · cases h
      exact .finish hholds
    · cases h
      exact ⟨_, rfl, fun _ => .inl (by rw [hcall]; rfl),
        .keeps hholds.symm (.inr (.inl (by rw [hcall]; rfl)))⟩
  case h_14 d result hcall =>
    have hholds : (s.calls tid).holds = none := by rw [hcall]; rfl
    have hcopy : (s.calls tid).copy = some d := by rw [hcall]; rfl
    split at h <;> cases h <;> exact .useFinish hholds (.inl hcopy)
  case h_15 hcall =>
    have hholds : (s.calls tid).holds = none := by rw [hcall]; rfl
    split at h
    · cases h
      exact ⟨_, rfl, nofun, .keeps hholds.symm (.inl rfl)⟩
    · rename_i d hsocket
      cases h
      exact ⟨_, rfl, nofun, .uses d (.inr (.inr hsocket)) hholds.symm (.inl rfl)⟩
  case h_16 hcall =>
    cases h
    refine ⟨.out (some (.returned 0)), ?_, nofun, ?_⟩
    · show Function.update s.closeSocket.calls tid _ = _
      rw [closeSocket_calls]
    · show Changes s tid .close _ s.closeSocket.socket s.closeSocket.kernel
      rw [closeSocket_socket]
      exact .closes (by rw [hcall]; rfl) rfl rfl rfl
  case h_17 => cases h

/-! ## No descriptor is lost -/

theorem sound_closeSocket (hs : s.kernel.Sound s.slots) :
    s.closeSocket.kernel.Sound (Function.update s.slots none none) := by
  cases h : s.socket with
  | none =>
    have hidle := Function.update_eq_self none s.slots
    rw [show s.slots none = none from h] at hidle
    rw [closeSocket, h, hidle]
    exact hs
  | some d =>
    rw [closeSocket, h]
    exact hs.release h

/-- **Every move keeps the descriptors accounted for.** -/
theorem Moves.sound (h : s.Moves tid action s') (hs : s.kernel.Sound s.slots) :
    s'.kernel.Sound s'.slots := by
  obtain ⟨call, hcalls, -, hchanges⟩ := h
  rw [slots_update hcalls]
  have hstored : ∀ holds, Function.update (Function.update s.slots (some tid) holds) none s.socket =
      Function.update s.slots (some tid) holds := fun holds => Function.update_eq_self none _
  have hsame : Function.update s.slots (some tid) (s.calls tid).holds = s.slots :=
    Function.update_eq_self (some tid) s.slots
  generalize s'.socket = socket, s'.kernel = kernel at hchanges ⊢
  cases hchanges with
  | keeps hholds _ =>
    rw [hholds, hstored, hsame]
    exact hs
  | uses d _ hholds _ =>
    rw [hholds, hstored, hsame]
    exact hs.used d
  | opens d hfree hbefore hholds _ =>
    rw [hholds, hstored]
    exact hs.acquire hbefore hfree
  | drops d hbefore hholds _ =>
    rw [hholds, hstored]
    exact hs.release hbefore
  | stores d hbefore hholds _ =>
    -- The old descriptor goes first, then the new one moves out of the call.
    have hmoved := (sound_closeSocket hs).move (i := some tid) (j := none)
      (Function.update_self ..) (Option.some_ne_none tid)
    rw [Function.update_of_ne (Option.some_ne_none tid), Function.update_comm (Option.some_ne_none tid).symm,
      Function.update_idem, show s.slots (some tid) = some d from hbefore] at hmoved
    rw [hholds]
    exact hmoved
  | closes hbefore hholds _ _ =>
    rw [hbefore] at hsame
    rw [hholds, hsame]
    exact sound_closeSocket hs

theorem sound_next {input : Input} (h : s.next input = some s') (hs : s.kernel.Sound s.slots) :
    s'.kernel.Sound s'.slots := by
  cases input with
  | call tid action => exact (moves_of_act h).sound hs
  | others descriptors =>
    rw [next] at h
    split_ifs at h with hapart
    cases h
    exact hs.setOthers hapart

theorem sound_init : ({} : State).kernel.Sound ({} : State).slots := by
  have hnone : ({} : State).slots = fun _ => none := by
    funext place
    cases place <;> rfl
  rw [hnone]
  exact .empty

/-- The descriptors are accounted for in every reachable state. -/
theorem sound_of_reachable (h : Reachable (stepOf next) {} s) : s.kernel.Sound s.slots :=
  h.invariant (I := fun s => s.kernel.Sound s.slots) sound_init fun _ _ _ _ hs hstep => sound_next hstep hs

/-- **Every descriptor is closed once, by whoever has it**: what is open stands in the transport or in one
call of `connect`, each descriptor in one place; nothing is lost, and no foreign descriptor is closed.  With
nobody in `connect` only the stored one is open. -/
theorem descriptors_accounted (h : Reachable (stepOf next) {} s) :
    s.kernel.strayCloses = 0 ∧
      (∀ d, d ∈ s.kernel.ours ↔ s.socket = some d ∨ ∃ tid, (s.calls tid).holds = some d) ∧
      (∀ tid d, (s.calls tid).holds = some d →
        s.socket ≠ some d ∧ ∀ tid', (s.calls tid').holds = some d → tid' = tid) ∧
      s.kernel.opened = s.kernel.closed + s.kernel.ours.card ∧
      ((∀ tid, (s.calls tid).holds = none) → s.kernel.ours = s.socket.toFinset) := by
  have hs := sound_of_reachable h
  have howned : ∀ d, d ∈ s.kernel.ours ↔ s.socket = some d ∨ ∃ tid, (s.calls tid).holds = some d := by
    intro d
    rw [hs.owned, Option.exists]
    rfl
  refine ⟨hs.closes, howned, fun tid d hholds => ⟨fun hsocket => ?_, fun tid' hholds' => ?_⟩,
    hs.balanced, fun hnone => ?_⟩
  · exact absurd (hs.exclusive none (some tid) d hsocket hholds) (Option.some_ne_none tid).symm
  · exact Option.some.inj (hs.exclusive (some tid') (some tid) d hholds' hholds)
  · ext d
    rw [howned, Option.mem_toFinset]
    constructor
    · rintro (hsocket | ⟨tid, hholds⟩)
      · exact hsocket
      · rw [hnone tid] at hholds
        cases hholds
    · exact .inl

/-- Two calls of `connect` at once: the first address of one is refused, and the later one wins. -/
def overlapping : List Input :=
  [.call 0 (.resolve (.ok 2)), .call 0 (.socket (.ok 5)), .call 1 (.resolve (.ok 1)),
    .call 0 (.connect (.error "Connection refused")), .call 1 (.socket (.ok 6)),
    .call 0 .closeRefused, .call 1 (.connect (.ok ())), .call 0 (.socket (.ok 5)), .call 1 .store,
    .call 0 (.connect (.ok ())), .call 0 .store]

theorem descriptors_accounted_overlapping :
    ∃ s, Reachable (stepOf next) {} s ∧ s.socket = some 5 ∧ s.kernel.opened = 3 ∧ s.kernel.strayCloses = 0 := by
  have hrun : (execute next {} overlapping).map (fun s =>
      decide (s.socket = some 5 ∧ s.kernel.opened = 3)) = some true := by decide
  obtain ⟨s, hruns, hs⟩ := Library.exists_runs_of_execute hrun
  obtain ⟨hsocket, hopened⟩ := of_decide_eq_true hs
  exact ⟨s, ⟨_, hruns⟩, hsocket, hopened, (descriptors_accounted ⟨_, hruns⟩).1⟩

/-! ## One thread that receives -/

/-- Only this thread connects, receives and closes. -/
def SoleUser (user : ℕ) (_ : State) : Input → Prop
  | .call tid action => action.exclusive = true → tid = user
  | .others _ => True

instance (user : ℕ) (s : State) : (input : Input) → Decidable (SoleUser user s input)
  | .call tid action => inferInstanceAs (Decidable (action.exclusive = true → tid = user))
  | .others _ => inferInstanceAs (Decidable True)

/-- Nobody else is inside a call, and the copy is the stored descriptor. -/
structure Solo (user : ℕ) (s : State) : Prop where
  sound : s.kernel.Sound s.slots
  inside : ∀ tid, (s.calls tid).inside = true → tid = user
  copies : ∀ tid d, (s.calls tid).copy = some d → s.socket = some d
  uses : s.kernel.strayUses = 0

theorem strayUses_release (k : Handles ℕ) (d : ℕ) : (k.release d).strayUses = k.strayUses := by
  unfold Handles.release
  split_ifs <;> rfl

theorem strayUses_closeSocket (s : State) : s.closeSocket.kernel.strayUses = s.kernel.strayUses := by
  unfold closeSocket
  split
  · rfl
  · exact strayUses_release _ _

/-- With one user a move leaves the copy in `receive` the stored descriptor. -/
theorem Moves.solo (h : s.Moves tid action s') (hsole : action.exclusive = true → tid = user)
    (hs : s.Solo user) : s'.Solo user := by
  have hsound := h.sound hs.sound
  obtain ⟨call, hcalls, hinside, hchanges⟩ := h
  have hinside' : ∀ t, (s'.calls t).inside = true → t = user := by
    intro t ht
    rw [hcalls] at ht
    by_cases heq : t = tid
    · subst heq
      rw [Function.update_self] at ht
      exact (hinside ht).elim (hs.inside t) hsole
    · rw [Function.update_of_ne heq] at ht
      exact hs.inside t ht
  -- The copies of the others are none where the user moves, and the stored descriptor anyway.
  have hother : ∀ t d, t ≠ tid → (s'.calls t).copy = some d → s.socket = some d ∧ tid ≠ user := by
    intro t d hne hcopy
    rw [hcalls, Function.update_of_ne hne] at hcopy
    have huser := hs.inside t (Call.inside_of_copy hcopy)
    exact ⟨hs.copies t d hcopy, fun heq => hne (huser.trans heq.symm)⟩
  have hown : (s'.calls tid).copy = call.copy := by rw [hcalls, Function.update_self]
  have hcopies : ∀ {socket : Option ℕ}, (∀ d, call.copy = some d → socket = some d) →
      (tid ≠ user → socket = s.socket) → ∀ t d, (s'.calls t).copy = some d → socket = some d := by
    intro socket hmine hrest t d hcopy
    by_cases heq : t = tid
    · subst heq
      exact hmine d (hown ▸ hcopy)
    · obtain ⟨hsocket, hne⟩ := hother t d heq hcopy
      rw [hrest hne, hsocket]
  have hkept : call.copy = none ∨ call.copy = (s.calls tid).copy ∨ call.copy = s.socket →
      ∀ d, call.copy = some d → s.socket = some d := by
    rintro (hcopy | hcopy | hcopy) d hd
    · rw [hcopy] at hd
      cases hd
    · exact hs.copies tid d (hcopy ▸ hd)
    · exact hcopy ▸ hd
  have hnone : call.copy = none → ∀ (socket : Option ℕ) d, call.copy = some d → socket = some d := by
    intro hcopy socket d hd
    rw [hcopy] at hd
    cases hd
  generalize hsocket : s'.socket = socket, hkernel : s'.kernel = kernel at hchanges
  cases hchanges with
  | keeps _ hcopy =>
    refine ⟨hsound, hinside', ?_, ?_⟩
    · rw [hsocket]
      exact hcopies (hkept hcopy) fun _ => rfl
    · rw [hkernel]
      exact hs.uses
  | uses d huse _ hcopy =>
    refine ⟨hsound, hinside', ?_, ?_⟩
    · rw [hsocket]
      exact hcopies (hkept hcopy) fun _ => rfl
    · rw [hkernel]
      have hslot : ∃ place, s.slots place = some d := by
        rcases huse with hholds | hcopied | hstored
        · exact ⟨some tid, hholds⟩
        · exact ⟨none, hs.copies tid d hcopied⟩
        · exact ⟨none, hstored⟩
      obtain ⟨place, hplace⟩ := hslot
      rw [hs.sound.use hplace]
      exact hs.uses
  | opens d _ _ _ hcopy =>
    refine ⟨hsound, hinside', ?_, ?_⟩
    · rw [hsocket]
      exact hcopies (hnone hcopy _) fun _ => rfl
    · rw [hkernel]
      exact hs.uses
  | drops d _ _ hcopy =>
    refine ⟨hsound, hinside', ?_, ?_⟩
    · rw [hsocket]
      exact hcopies (hnone hcopy _) fun _ => rfl
    · rw [hkernel, strayUses_release]
      exact hs.uses
  | stores d hbefore _ hcopy =>
    have huser := hs.inside tid (Call.inside_of_holds hbefore)
    refine ⟨hsound, hinside', ?_, ?_⟩
    · rw [hsocket]
      exact hcopies (hnone hcopy _) fun hne => absurd huser hne
    · rw [hkernel, strayUses_closeSocket]
      exact hs.uses
  | closes _ _ hcopy hexclusive =>
    refine ⟨hsound, hinside', ?_, ?_⟩
    · rw [hsocket]
      exact hcopies (hnone hcopy _) fun hne => absurd (hsole hexclusive) hne
    · rw [hkernel, strayUses_closeSocket]
      exact hs.uses

/-- **A receiver that nobody closes under its feet uses its own descriptor**: where one thread alone
connects, receives and closes, while any others send and shut down, no system call of any of them goes to a
descriptor that is not the transport's, none closes one, and `receive` always works on the stored one. -/
theorem receive_ownDescriptor {inputs : List Input}
    (h : Runs (restrict (stepOf next) (SoleUser user)) {} inputs s) :
    s.kernel.strayUses = 0 ∧ s.kernel.strayCloses = 0 ∧
      ∀ tid d, (s.calls tid).copy = some d → tid = user ∧ s.socket = some d := by
  have hsolo : s.Solo user := by
    refine h.invariant (I := Solo user) ?_ ⟨sound_init, nofun, nofun, rfl⟩
    intro s input s' hs ⟨hsole, hstep⟩
    cases input with
    | call tid action => exact (moves_of_act hstep).solo hsole hs
    | others descriptors =>
      have hsound := sound_next hstep hs.sound
      change s.next _ = _ at hstep
      rw [next] at hstep
      split_ifs at hstep
      cases hstep
      exact ⟨hsound, hs.inside, hs.copies, hs.uses⟩
  exact ⟨hsolo.uses, hsolo.sound.closes, fun tid d hcopy =>
    ⟨hsolo.inside tid (Call.inside_of_copy hcopy), hsolo.copies tid d hcopy⟩⟩

/-- Thread 0 connects and receives while thread 1 sends and shuts down. -/
def exchange : List Input :=
  [.call 0 (.resolve (.ok 1)), .call 0 (.socket (.ok 5)), .call 0 (.connect (.ok ())), .call 0 .store,
    .call 0 (.receive 1 0), .call 1 (.send (.ok 8)), .call 0 (.poll (.ready false)), .call 1 .shutdown]

theorem receive_ownDescriptor_exchange :
    ∃ s, Runs (restrict (stepOf next) (SoleUser 0)) {} exchange s ∧ s.calls 0 = .polled 5 false ∧
      s.kernel.strayUses = 0 ∧ s.socket = some 5 := by
  have hrun : (execute (Library.restrictNext next (SoleUser 0)) {} exchange).map (fun s =>
      decide (s.calls 0 = .polled 5 false)) = some true := by decide +kernel
  obtain ⟨s, hruns, hs⟩ := Library.exists_runs_of_execute hrun
  have hsole := hruns.mono fun _ _ _ h => Library.restrictNext_restrict h
  have hcall : s.calls 0 = .polled 5 false := of_decide_eq_true hs
  obtain ⟨huses, -, hcopies⟩ := receive_ownDescriptor hsole
  exact ⟨s, hsole, hcall, huses, (hcopies 0 5 (by rw [hcall]; rfl)).2⟩

/-- Two threads that close and receive: the copy may have become somebody else's. -/
example : (execute next {}
    [.call 0 (.resolve (.ok 1)), .call 0 (.socket (.ok 5)), .call 0 (.connect (.ok ())), .call 0 .store,
      .call 0 (.receive 1 0), .call 1 .close, .others {5}, .call 0 (.poll (.ready false))]).map
    (fun s => s.kernel.strayUses) = some 1 := by decide +kernel

end State

end NetFT.UdpTransport
