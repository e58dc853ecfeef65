import Adbcpp.Client
import Adbcpp.Session.Scripting

/-! Dialogues and wires show a client the same. Whatever a client does over a wire, there is
a dialogue with which it gets the same answers, and the bytes of the wire spell that
dialogue. The other way round, a dialogue of valid frames, faults and framing errors is
met over a scripted transport. -/

namespace Adbcpp

open Protocol Prog Sync

/-- The same streams with another channel below their connection. -/
def Streams.around {ι σ τ : Type} (s : Streams ι σ) (session : τ) : Streams ι τ where
  connection := { s.connection with session }
  objects := s.objects

namespace Client

variable {ι σ τ T α : Type} [Monoid T] {A : Replay σ τ T}

/-- States that are related differ in their sessions only. -/
theorem eq_around {s : Streams ι σ} {t : Streams ι τ} (h : (replay ι A).Rel s t) : t = s.around t.connection.session := by
  obtain ⟨⟨-, hrest⟩, hobjects⟩ := h
  have hconnection : { Connection.part.rest t.connection with session := t.connection.session } =
      { Connection.part.rest s.connection with session := t.connection.session } :=
    congrArg (fun c : Connection Unit => { c with session := t.connection.session }) hrest.symm
  have hsame : t.objects = s.objects := hobjects.symm
  show Streams.mk { Connection.part.rest t.connection with session := t.connection.session } t.objects = _
  rw [hconnection, hsame]
  rfl

/-! ### From a wire to a dialogue -/

variable [DecidableEq ι]

/-- A dialogue gives the client its answers, and the bytes that were read and those that were delivered
spell it. `moves` says which bytes these are. -/
def Mirrored [Transport τ] (b : Build) (client : Client ι α) (s : Streams ι (Session τ))
    (moves : List Byte → List Byte → τ → Prop) : Prop :=
  ∃ (inbox : List Arrival) (outcomes : List WriteOutcome) (d : Dialogue) (taken delivered : List Byte),
    (client.perform b).run (s.around { inbox, outcomes, closed := s.connection.session.closed }) =
      (((client.perform b).run s).1, ((client.perform b).run s).2.around d) ∧
    d.inbox = [] ∧ d.outcomes = [] ∧ d.closed = ((client.perform b).run s).2.connection.session.closed ∧
    moves taken delivered ((client.perform b).run s).2.connection.session.transport ∧
    Spells Arrival.Spelled inbox taken ∧ Spells Event.Spelled d.trace delivered

theorem Mirrored.imp [Transport τ] {b : Build} {client : Client ι α} {s : Streams ι (Session τ)}
    {moves moves' : List Byte → List Byte → τ → Prop} (h : Mirrored b client s moves)
    (himp : ∀ taken delivered t, moves taken delivered t → moves' taken delivered t) :
    Mirrored b client s moves' := by
  obtain ⟨inbox, outcomes, d, taken, delivered, hrun, hinbox, houtcomes, hclosed, hmoves, hspelled⟩ := h
  exact ⟨inbox, outcomes, d, taken, delivered, hrun, hinbox, houtcomes, hclosed, himp _ _ _ hmoves, hspelled⟩

/-- Every client is mirrored, with the bytes that have gone over the wire. -/
theorem perform_mirrored [Wire τ] (b : Build) (client : Client ι α) (s : Streams ι (Session τ)) :
    Mirrored b client s (Wire.Moves s.connection.session.transport) := by
  let d₀ : Dialogue := { inbox := [], outcomes := [], closed := s.connection.session.closed }
  have hstart : (replay ι Session.replay).Rel s (s.around d₀) := ⟨⟨rfl, rfl⟩, rfl⟩
  obtain ⟨w, t, hlabel, hR, hrun⟩ := (perform_replays Session.replayed b client).exists_tape hstart
  obtain ⟨taken, delivered, events, hmoves, hinbox, htrace, hevents⟩ := hlabel
  have htrace' : t.connection.session.trace = events := htrace
  refine ⟨w.inbox, w.outcomes, t.connection.session.load 1, taken, delivered, ?_, rfl, rfl, hR.1.1.symm, hmoves,
    hinbox, ?_⟩
  · rw [eq_around hR] at hrun
    exact hrun
  · show Spells Event.Spelled t.connection.session.trace delivered
    rw [htrace']
    exact hevents

/-- A client over a wire gets the answers that a dialogue gives it, which the bytes spell. -/
theorem perform_dialogue [Wire τ] (b : Build) (client : Client ι α) (s : Streams ι (Session τ)) :
    ∃ (inbox : List Arrival) (outcomes : List WriteOutcome) (d : Dialogue) (taken delivered : List Byte),
      (client.perform b).run (s.around { inbox, outcomes, closed := s.connection.session.closed }) =
        (((client.perform b).run s).1, ((client.perform b).run s).2.around d) ∧
      d.inbox = [] ∧ d.outcomes = [] ∧ d.closed = ((client.perform b).run s).2.connection.session.closed ∧
      Wire.Moves s.connection.session.transport taken delivered
        ((client.perform b).run s).2.connection.session.transport ∧
      Spells Arrival.Spelled inbox taken ∧ Spells Event.Spelled d.trace delivered :=
  perform_mirrored b client s

/-! ### From a dialogue to a wire -/

/-- What a dialogue of spelled arrivals answers, a session over a script of them answers too, and the
bytes that it delivers spell what is on the record. -/
theorem perform_scripted (b : Build) (client : Client ι α) (s : Streams ι Dialogue) {t : ScriptedTransport}
    (hopen : s.connection.session.closed = false)
    (harrivals : List.Forall₂ Session.Scripts s.connection.session.inbox t.arrivals)
    (houtcomes : t.outcomes = s.connection.session.outcomes)
    (hdelivered : Spells Event.Spelled s.connection.session.trace t.delivered) :
    ∃ session : Session ScriptedTransport, (client.perform b).run (s.around { transport := t }) =
        (((client.perform b).run s).1, ((client.perform b).run s).2.around session) ∧
      session.closed = ((client.perform b).run s).2.connection.session.closed ∧
      Spells Event.Spelled ((client.perform b).run s).2.connection.session.trace session.transport.delivered := by
  have hmeets : Session.Meets s.connection.session { transport := t } :=
    ⟨hopen.symm, fun _ => harrivals, houtcomes, hdelivered⟩
  have hstart : (replay ι Session.scripting).Rel s (s.around { transport := t }) := ⟨⟨hmeets, rfl⟩, rfl⟩
  obtain ⟨w, u, -, hR, hrun⟩ := (perform_replays Session.scripted b client).exists_tape hstart
  have hmeets' : Session.Meets ((client.perform b).run s).2.connection.session u.connection.session := hR.1.1
  refine ⟨u.connection.session, ?_, hmeets'.closed, hmeets'.delivered⟩
  rw [eq_around hR] at hrun
  exact hrun

/-- A device that refuses a stream, and then sends a header whose magic is wrong. -/
def refusal : Frame where
  header := { command := kClse, arg1 := 2, magic := Message.computeMagic kClse }
  payload := []

def badMagic : Message := { command := kClse }

def refusing : Dialogue where
  inbox := [.frame refusal, .violation "the header magic does not match its command"]

/-- A client that lists a directory, and runs a command where that has failed. -/
def twoTries : Client ℕ Unit :=
  .call (.list (bytesOf "/")) fun
    | .ok _ => .done ()
    | .error _ => .call (.run (bytesOf "ls") .v1) fun _ => .done ()

theorem perform_scripted_refusing :
    let s : Streams ℕ Dialogue := { connection := { session := refusing } }
    let t : ScriptedTransport := { arrivals := [.ok refusal.bytes, .ok badMagic.encode] }
    ∃ session : Session ScriptedTransport, (twoTries.perform {}).run (s.around { transport := t }) =
        (((twoTries.perform {}).run s).1, ((twoTries.perform {}).run s).2.around session) ∧
      session.closed = ((twoTries.perform {}).run s).2.connection.session.closed ∧
      Spells Event.Spelled ((twoTries.perform {}).run s).2.connection.session.trace session.transport.delivered := by
  intro s t
  have hframe : Session.Scripts (.frame refusal) (.ok refusal.bytes) := .frame (by decide) ⟨by decide, by decide, by decide⟩
  have hviolation : Session.Scripts (.violation "the header magic does not match its command") (.ok badMagic.encode) :=
    .violation (.magic (by decide))
  exact perform_scripted {} twoTries s rfl (.cons hframe (.cons hviolation .nil)) rfl .nil

end Client

end Adbcpp
