/-
# NetFT.Client.Bench — a client and the fake sensor, on one link.

The client is the machine of `NetFT.Client.Machine`; the sensor takes its commands in order and streams
records to the socket of the last StartRealtime.  Datagrams travel in order, in both directions, and as
slowly as they like: a step of the client, a command that arrives and a record that is sent are separate
events.

* `FakeSensor` is the class of `support/fake_sensor.cpp`, without queued payloads and skipped numbers.
* `Link` has what is on its way; a socket that was replaced gets nothing any more.
* `Pc.link` says what a step of the client does to the link, and what it can receive.
* The numbers of the StartRealtime commands, which of them `bias` sent, and how the records were
  classified are history; no step depends on them.
-/
import Mathlib.Data.UInt
import NetFT.Library.Epoch
import NetFT.Client.Machine
import NetFT.Wire

namespace NetFT

theorem exists_decodeRecord_pack (record : RawRecord) :
    ∃ decoded, decodeRecord record.pack = .ok decoded ∧ decoded.rdtSequence = record.rdtSequence := by
  have hlength : record.pack.length = 36 := by simp [RawRecord.pack, RawRecord.axes]
  rw [decodeRecord, if_neg (not_not.mpr hlength)]
  exact ⟨_, rfl, by simp only [RawRecord.pack, List.cons_append, List.flatMap_cons, readU32_toBytes]⟩

end NetFT

namespace NetFT.Client

set_option autoImplicit false

open Library.Epoch (Tag)
open Library.Threads (Tid)

/-! ## The sensor -/

structure FakeSensor where
  streaming : Bool := false
  /-- `client_` and `has_client_`: the socket that gets the records. -/
  client : Option ℕ := none
  rdt : UInt32 := 0
  deriving DecidableEq, Repr

namespace FakeSensor

/-- `record_command`. -/
def recordCommand (sensor : FakeSensor) (command : Command) (peer : ℕ) : FakeSensor :=
  match command with
  | .StartRealtime => { streaming := true, client := some peer, rdt := 0 }
  | .StopStreaming | .SetSoftwareBias => { sensor with streaming := false }
  | .StartBuffered | .ResetConditionLatch => sensor

/-- `send_next`: the sensor numbers the record; the rest of it is what it measures. -/
def sendNext (sensor : FakeSensor) (reading : RawRecord) : Option (ℕ × RawRecord × FakeSensor) :=
  if sensor.streaming then
    sensor.client.map fun peer =>
      let rdt := sensor.rdt + 1
      (peer, { reading with rdtSequence := rdt }, { sensor with rdt })
  else none

end FakeSensor

/-! ## The link -/

/-- A record on its way to the client; its epoch is the StartRealtime that it answers. -/
structure Packet where
  tag : Tag UInt32
  data : List UInt8
  decodes : ∃ record, decodeRecord data = .ok record ∧ record.rdtSequence = tag.number

/-- A command on its way to the sensor, and how many StartRealtime were sent up to it. -/
structure Message where
  command : Command
  socket : ℕ
  start : ℕ
  deriving DecidableEq, Repr

/-- How `handle_record` classified a record. -/
structure Classified where
  tag : Tag UInt32
  kind : SequenceKind
  deriving DecidableEq, Repr

structure Link where
  /-- How many sockets the client has connected; the last one is in use. -/
  socket : ℕ := 0
  starts : ℕ := 0
  /-- Those that `bias` sent. -/
  biased : List ℕ := []
  commands : List Message := []
  sensor : FakeSensor := {}
  /-- The StartRealtime that the sensor obeys. -/
  epoch : ℕ := 0
  packets : List Packet := []
  /-- The last record that was taken from the socket. -/
  taken : Option (Tag UInt32) := none
  /-- The last record that was handled since the RDT tracker was reset. -/
  newest : Option (Tag UInt32) := none
  /-- Every record that was handled, the newest first. -/
  handled : List Classified := []

namespace Link

/-- `UdpTransport::connect` replaces the socket. -/
def connect (l : Link) : Link := { l with socket := l.socket + 1, packets := [], taken := none }

/-- How many StartRealtime are sent with this command. -/
def startsWith (l : Link) (command : Command) : ℕ :=
  if command = .StartRealtime then l.starts + 1 else l.starts

/-- `UdpTransport::send`. -/
def send (l : Link) (command : Command) (result : Except String Unit) : Link :=
  if result.isOk then
    { l with
      starts := l.startsWith command
      commands := l.commands ++ [⟨command, l.socket, l.startsWith command⟩] }
  else l

/-- The second command of `bias`. -/
def sendRestart (l : Link) (result : Except String Unit) : Link :=
  let l' := l.send .StartRealtime result
  if result.isOk then { l' with biased := l'.starts :: l.biased } else l'

/-- `UdpTransport::receive`: nothing, or the oldest datagram in the socket. -/
def receive (l : Link) (data : List UInt8) : Option Link :=
  match data, l.packets with
  | [], _ => some l
  | _, [] => none
  | data, d :: rest => if d.data = data then some { l with packets := rest, taken := some d.tag } else none

/-- The record that was taken last is handled. -/
def handle (l : Link) (kind : SequenceKind) : Link :=
  match l.taken with
  | none => l
  | some tag => { l with newest := some tag, handled := ⟨tag, kind⟩ :: l.handled }

/-- The RDT tracker is reset. -/
def forget (l : Link) : Link := { l with newest := none }

/-- A command arrives. -/
def arrive (l : Link) : Option Link :=
  match l.commands with
  | [] => none
  | m :: rest =>
    some
      { l with
        commands := rest
        sensor := l.sensor.recordCommand m.command m.socket
        epoch := if m.command = .StartRealtime then m.start else l.epoch }

/-- The sensor sends a record. -/
def emit (l : Link) (reading : RawRecord) : Option Link :=
  (l.sensor.sendNext reading).map fun (peer, record, sensor) =>
    { l with
      sensor
      packets :=
        if peer = l.socket then
          l.packets ++
            [{ tag := ⟨l.epoch, record.rdtSequence⟩
               data := record.pack
               decodes := exists_decodeRecord_pack record }]
        else l.packets }

end Link

/-- What a step of a thread does to the link; `none` where the link does not allow it. -/
def Pc.link (p : Pc) (choice : Choice) (c : Impl) (l : Link) : Option Link :=
  match p with
  | .run (.connect _) => some (if choice = .proceed then l.connect else l)
  | .run (.send _) => some (l.send .StartRealtime (sendResult c choice))
  | .run (.reset _) | .bias _ .reset => some l.forget
  | .run (.receive _) =>
    match choice with
    | .received data => l.receive data
    | _ => some l
  | .run (.observe _ record _) =>
    some (l.handle (c.rdtSequence.observe record.rdtSequence).1.kind)
  | .run (.close _ _) | .run .finishClose | .stop _ _ .command =>
    some (if c.sessionStarted then l.send .StopStreaming (sendResult c choice) else l)
  | .bias _ (.send _) => some (l.send .SetSoftwareBias (sendResult c choice))
  | .bias _ .restart => some (l.sendRestart (sendResult c choice))
  | _ => some l

def System.link (s : System) (i : Input) (l : Link) : Option Link :=
  match i.move with
  | .go choice => (s.threads i.tid).pc.link choice s.shared.impl l
  | _ => some l

/-! ## The bench -/

structure Bench where
  client : System
  link : Link

inductive Event where
  | client (i : Input)
  | command
  | record (reading : RawRecord)

namespace Bench

def init (config : Config) : Bench := ⟨.init config, {}⟩

def next (b : Bench) : Event → Option Bench
  | .client i =>
    (b.client.link i b.link).bind fun link => (program.next b.client i).map fun client => ⟨client, link⟩
  | .command => b.link.arrive.map fun link => ⟨b.client, link⟩
  | .record reading => (b.link.emit reading).map fun link => ⟨b.client, link⟩

abbrev Step : Bench → Event → Bench → Prop := Library.stepOf next

/-- The states of the client and the link, under any configuration. -/
def Reachable (config : Config) (b : Bench) : Prop := Library.Reachable Step (init config) b

/-- What a step of the bench can be. -/
theorem step_cases {b b' : Bench} {e : Event} (h : Step b e b') :
    (∃ i, e = .client i ∧ b.client.link i b.link = some b'.link ∧ Client.Step b.client i b'.client) ∨
      (e = .command ∧ b.link.arrive = some b'.link ∧ b'.client = b.client) ∨
      ∃ reading, e = .record reading ∧ b.link.emit reading = some b'.link ∧ b'.client = b.client := by
  cases e with
  | client i =>
    simp only [Library.stepOf, next, Option.bind_eq_some_iff, Option.map_eq_some_iff] at h
    obtain ⟨link, hlink, client, hclient, rfl⟩ := h
    exact .inl ⟨i, rfl, hlink, hclient⟩
  | command =>
    obtain ⟨link, hlink, rfl⟩ := Option.map_eq_some_iff.mp h
    exact .inr (.inl ⟨rfl, hlink, rfl⟩)
  | record reading =>
    obtain ⟨link, hlink, rfl⟩ := Option.map_eq_some_iff.mp h
    exact .inr (.inr ⟨reading, rfl, hlink, rfl⟩)

theorem Reachable.client {config : Config} {b : Bench} (h : b.Reachable config) :
    b.client.Reachable config :=
  Library.Reachable.invariant (I := fun b => b.client.Reachable config) Library.Reachable.init
    (fun _ _ _ _ hinv hstep => by
      rcases step_cases hstep with ⟨i, -, -, hclient⟩ | ⟨-, -, hsame⟩ | ⟨_, -, -, hsame⟩
      · exact Library.Reachable.snoc hinv hclient
      · exact hsame ▸ hinv
      · exact hsame ▸ hinv) h

end Bench

end NetFT.Client
