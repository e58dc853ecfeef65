import Adbcpp.Channel

/-! A connection to a device: the channel to it and what its CNXN announced. -/

namespace Adbcpp

open Protocol

structure Connection (σ : Type) where
  session : σ
  deviceVersion : UInt32 := 0
  /-- The largest payload the device accepts. -/
  maxData : UInt32 := 0
  /-- adb reserves the local id 1. -/
  nextLocalId : UInt32 := 2
  features : List (List Byte) := []
  deviceSerial : List Byte := []
  delayedAck : Bool := false
  requestedAuthorization : Bool := false

namespace Connection

variable {σ τ α : Type}

/-- An operation on the session of the connection. -/
def onSession (p : Action σ α) : Action (Connection σ) α :=
  Prog.zoom Connection.session (fun c s => { c with session := s }) p

@[simp] theorem run_onSession (p : Action σ α) (c : Connection σ) :
    (onSession p).run c = ((p.run c.session).1, { c with session := (p.run c.session).2 }) := rfl

/-- Two connections that differ only in sessions that `R` relates. -/
def Over (R : σ → τ → Prop) (c : Connection σ) (d : Connection τ) : Prop :=
  R c.session d.session ∧ d = { c with session := d.session }

theorem onSession_endsAlike {R : σ → τ → Prop} {p : Action σ α} {q : Action τ α} {c : Connection σ}
    {d : Connection τ} (hd : d = { c with session := d.session })
    (h : Prog.EndsAlike R (p.run c.session) (q.run d.session)) :
    Prog.EndsAlike (Over R) ((onSession p).run c) ((onSession q).run d) := by
  refine Prog.EndsAlike.zoom h fun s t hR => ?_
  rw [hd]
  exact ⟨hR, rfl⟩

theorem onSession_inStep {R : σ → τ → Prop} {p : Action σ α} {q : Action τ α} (h : Prog.InStep R p q) :
    Prog.InStep (Over R) (onSession p) (onSession q) :=
  fun c d hR => onSession_endsAlike hR.2 (h c.session d.session hR.1)

/-- Hands out the next local id, with the wraparound of its 32 bits. -/
def allocateLocalId (c : Connection σ) : UInt32 × Connection σ :=
  (c.nextLocalId, { c with nextLocalId := c.nextLocalId + 1 })

/-- An exact match with one of the names the device announced. -/
def supportsFeature (c : Connection σ) (feature : List Byte) : Bool := c.features.contains feature

variable [Channel σ]

def send (header : Message) (payload : List Byte) : Action (Connection σ) Unit :=
  onSession (Channel.send header payload)

def receive : Action (Connection σ) Frame := onSession Channel.receive

theorem receive_pending {c c' : Connection σ} {f : Frame} (h : receive.run c = (.ok f, c')) :
    Channel.pending c'.session + f.payload.length < Channel.pending c.session := by
  rw [receive] at h
  obtain ⟨s, hs, rfl⟩ := Prog.zoom_eq_ok h
  exact Channel.receive_pending hs

end Connection

end Adbcpp
