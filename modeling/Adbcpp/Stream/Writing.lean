import Adbcpp.Stream.Exchange

/-! What a stream writes. A write is one WRTE with the bytes as its payload, and it
leaves what the stream can read as it is. Reading, waiting and closing send no WRTE. -/

namespace Adbcpp

open Protocol Dialogue

/-- The payloads of the WRTEs that were sent for the stream `localId`. -/
def wrtes (localId : UInt32) (trace : List Event) : List (List Byte) :=
  trace.filterMap fun
    | .sent f => if f.header.command = kWrte ∧ f.header.arg0 = localId then some f.payload else none
    | _ => none

theorem wrtes_append (localId : UInt32) (trace trace' : List Event) :
    wrtes localId (trace ++ trace') = wrtes localId trace ++ wrtes localId trace' := by
  rw [wrtes, List.filterMap_append]
  rfl

/-- The message that carries `data`. -/
def wrteFrame (localId remoteId : UInt32) (data : List Byte) : Frame where
  header := { command := kWrte, arg0 := localId, arg1 := remoteId,
              dataLength := UInt32.ofNat data.length, dataCheck := Message.computeChecksum data,
              magic := Message.computeMagic kWrte }
  payload := data

theorem wrteFrame_sized {localId remoteId : UInt32} {data : List Byte} (h : data.length < 2 ^ 32) :
    (wrteFrame localId remoteId data).Sized := by
  rw [Frame.Sized, wrteFrame, UInt32.toNat_ofNat']
  exact Nat.mod_eq_of_lt h

theorem wrtes_wrteFrames (localId remoteId : UInt32) (pieces : List (List Byte)) :
    wrtes localId (pieces.map fun data => .sent (wrteFrame localId remoteId data)) = pieces := by
  induction pieces with
  | nil => rfl
  | cons data pieces ih =>
    rw [List.map_cons, ← List.singleton_append, wrtes_append, ih]
    simp [wrtes, wrteFrame]

namespace Dialogue

/-- Every WRTE that was attempted between two states, sent or not, has a payload with `P`. -/
def WritesOnly (P : List Byte → Prop) (d d' : Dialogue) : Prop :=
  ∃ new, d'.trace = d.trace ++ new ∧ ∀ f, (.sent f ∈ new ∨ .unsent f ∈ new) →
    f.header.command = kWrte → P f.payload

variable {P Q : List Byte → Prop} {d d' : Dialogue}

instance : Std.Refl (WritesOnly P) := ⟨fun _ => ⟨[], (List.append_nil _).symm, by simp⟩⟩

instance : IsTrans Dialogue (WritesOnly P) where
  trans := by
    rintro d e f ⟨new, hde, hnew⟩ ⟨new', hef, hnew'⟩
    refine ⟨new ++ new', by rw [hef, hde, List.append_assoc], fun g hg hwrte => ?_⟩
    simp only [List.mem_append] at hg
    rcases hg with (hg | hg) | (hg | hg)
    · exact hnew g (.inl hg) hwrte
    · exact hnew' g (.inl hg) hwrte
    · exact hnew g (.inr hg) hwrte
    · exact hnew' g (.inr hg) hwrte

theorem WritesOnly.mono (h : WritesOnly P d d') (hPQ : ∀ payload, P payload → Q payload) :
    WritesOnly Q d d' := by
  obtain ⟨new, htrace, hnew⟩ := h
  exact ⟨new, htrace, fun f hf hwrte => hPQ _ (hnew f hf hwrte)⟩

/-- Where no WRTE was attempted none was sent. -/
theorem WritesOnly.wrtes (h : WritesOnly (fun _ => False) d d') (localId : UInt32) :
    Adbcpp.wrtes localId d'.trace = Adbcpp.wrtes localId d.trace := by
  obtain ⟨new, htrace, hnew⟩ := h
  have hnone : Adbcpp.wrtes localId new = [] := by
    refine List.filterMap_eq_nil_iff.mpr fun event hevent => ?_
    cases event with
    | sent f => exact if_neg fun hf => hnew f (.inl hevent) hf.1
    | received f => rfl
    | unsent f => rfl
  rw [htrace, wrtes_append, hnone, List.append_nil]

/-- What a send has put on the record is a WRTE with its payload, if it is one at all. -/
theorem Attempt.writesOnly {f : Frame} {r : Except Error Unit} {new : List Event}
    (h : Attempt f r new) (hP : f.header.command = kWrte → P f.payload) :
    ∀ g, (.sent g ∈ new ∨ .unsent g ∈ new) → g.header.command = kWrte → P g.payload := by
  cases h <;> simp_all

theorem send_writesOnly {header : Message} {payload : List Byte}
    (hP : header.command = kWrte → P payload) (d : Dialogue) :
    WritesOnly P d ((send header payload).run d).2 := by
  obtain ⟨r, d', new, hrun, hattempt, -, -, htrace⟩ := send_attempt header payload d
  rw [hrun]
  exact ⟨new, htrace, hattempt.writesOnly hP⟩

theorem receive_writesOnly (d : Dialogue) : WritesOnly P d (receive.run d).2 := by
  by_cases hopen : d.closed = false
  swap
  · rw [receive_closed (by simpa using hopen)]
    exact refl_of (WritesOnly P) d
  rw [run_receive hopen]
  split
  next => exact refl_of (WritesOnly P) d
  next f rest _ => exact ⟨[.received f], rfl, by simp⟩
  next => exact ⟨[], (List.append_nil _).symm, by simp⟩
  next => exact ⟨[], (List.append_nil _).symm, by simp⟩

end Dialogue

namespace StreamOn

/-- What writing makes of a stream: a WRTE for each piece has been sent. -/
structure Wrote (k : ℕ) (pieces : List (List Byte)) (s s' : StreamOn Dialogue) : Prop where
  accepts : s'.Accepts k
  same : SameStream s s'
  stream : s'.stream = s.stream
  inbox : s'.connection.session.inbox = s.connection.session.inbox
  trace : s'.connection.session.trace = s.connection.session.trace ++
    pieces.map fun data => .sent (wrteFrame s.stream.localId s.stream.remoteId data)

variable {j k : ℕ} {data : List Byte} {pieces pieces' : List (List Byte)} {s s' t : StreamOn Dialogue}

theorem Wrote.source (h : Wrote k pieces s s') : s'.source = s.source := by
  rw [StreamOn.source, StreamOn.source, buffered, buffered, h.stream, h.inbox]

theorem Wrote.ending (h : Wrote k pieces s s') : s'.ending = s.ending := by
  rw [StreamOn.ending, StreamOn.ending, h.stream, h.inbox]

theorem Wrote.wrtes (h : Wrote k pieces s s') :
    Adbcpp.wrtes s.stream.localId s'.connection.session.trace =
      Adbcpp.wrtes s.stream.localId s.connection.session.trace ++ pieces := by
  rw [h.trace, wrtes_append, wrtes_wrteFrames]

theorem Wrote.maxData (h : Wrote k pieces s s') : s'.connection.maxData = s.connection.maxData := by
  rw [h.same.connection]

theorem Wrote.trans (h : Wrote j pieces s t) (h' : Wrote k pieces' t s') :
    Wrote k (pieces ++ pieces') s s' := by
  refine ⟨h'.accepts, trans_of SameStream h.same h'.same, h'.stream.trans h.stream,
    h'.inbox.trans h.inbox, ?_⟩
  rw [h'.trace, h.trace, h.stream, List.map_append, List.append_assoc]

theorem Wrote.nil (h : s.Accepts k) : Wrote k [] s s :=
  ⟨h, refl_of SameStream s, rfl, rfl, (List.append_nil _).symm⟩

/-- A write that fits the device's maximum is sent as one message. -/
theorem write_wrote (h : s.Accepts (k + writesOf data))
    (hle : data.length ≤ s.connection.maxData.toNat) :
    ∃ s', (write data).run s = (.ok (), s') ∧ Wrote k [data] s s' := by
  have hlt : data.length < 2 ^ 32 := Nat.lt_of_le_of_lt hle s.connection.maxData.toNat_lt
  have hmessage : makeMessage kWrte s.stream.localId s.stream.remoteId data =
      .ok (wrteFrame s.stream.localId s.stream.remoteId data).header := by
    rw [makeMessage, Message.dataLengthOf_ok hlt]
    rfl
  obtain ⟨d, hrun, hacc, hinbox, -, htrace⟩ := run_send_accepts
    (f := wrteFrame s.stream.localId s.stream.remoteId data) h (wrteFrame_sized hlt)
  refine ⟨{ s with connection := { s.connection with session := d } }, ?_,
    hacc, ⟨rfl, rfl, rfl, rfl⟩, rfl, hinbox, htrace⟩
  rw [write, Prog.run_bind_get, if_neg (Nat.not_lt.mpr hle), hmessage]
  exact hrun

/-- A write attempts one message at most, and changes nothing but the session. -/
theorem write_attempt (data : List Byte) (s : StreamOn Dialogue) : ∃ r d new,
    (write data).run s = (r, { s with connection := { s.connection with session := d } }) ∧
      Attempt (wrteFrame s.stream.localId s.stream.remoteId data) r new ∧
      d.trace = s.connection.session.trace ++ new ∧
      (new ≠ [] → data.length ≤ s.connection.maxData.toNat) := by
  by_cases hle : data.length ≤ s.connection.maxData.toNat
  swap
  · refine ⟨.error (.of .invalidArgument "the write is larger than the negotiated maximum payload"),
      s.connection.session, [], ?_, .refused _, (List.append_nil _).symm, fun h => absurd rfl h⟩
    rw [write, Prog.run_bind_get, if_pos (Nat.lt_of_not_le hle)]
    rfl
  have hlt : data.length < 2 ^ 32 := Nat.lt_of_le_of_lt hle s.connection.maxData.toNat_lt
  have hmessage : makeMessage kWrte s.stream.localId s.stream.remoteId data =
      .ok (wrteFrame s.stream.localId s.stream.remoteId data).header := by
    rw [makeMessage, Message.dataLengthOf_ok hlt]
    rfl
  obtain ⟨r, d, new, hrun, hattempt, -, -, htrace⟩ := send_attempt
    (wrteFrame s.stream.localId s.stream.remoteId data).header data s.connection.session
  refine ⟨r, d, new, ?_, hattempt, htrace, fun _ => hle⟩
  rw [write, Prog.run_bind_get, if_neg (Nat.not_lt.mpr hle), hmessage]
  show (onConnection (Connection.send _ data)).run s = _
  rw [run_onConnection, Connection.send, Connection.run_onSession, run_channel_send, hrun]

/-- A write that succeeds has sent its bytes, and one that fails has sent nothing. -/
theorem write_wrtes (data : List Byte) (s : StreamOn Dialogue) :
    Adbcpp.wrtes s.stream.localId ((write data).run s).2.connection.session.trace =
      Adbcpp.wrtes s.stream.localId s.connection.session.trace ++
        match ((write data).run s).1 with
        | .ok () => [data]
        | .error _ => [] := by
  obtain ⟨r, d, new, hrun, hattempt, htrace, -⟩ := write_attempt data s
  rw [hrun]
  dsimp only
  rw [htrace, wrtes_append]
  cases hattempt <;> simp [Adbcpp.wrtes, wrteFrame]

/-! ### What attempts no WRTE -/

/-- Nothing but the session has changed, and no WRTE was attempted. -/
structure Quiet (s s' : StreamOn Dialogue) : Prop where
  same : SameStream s s'
  silent : WritesOnly (fun _ => False) s.connection.session s'.connection.session

theorem Quiet.wrtes {s s' : StreamOn Dialogue} (h : Quiet s s') (localId : UInt32) :
    Adbcpp.wrtes localId s'.connection.session.trace = Adbcpp.wrtes localId s.connection.session.trace :=
  h.silent.wrtes localId

instance : Std.Refl Quiet := ⟨fun s => ⟨refl_of SameStream s, refl_of (WritesOnly _) _⟩⟩

instance : IsTrans (StreamOn Dialogue) Quiet where
  trans := by
    intro s t u hst htu
    exact ⟨trans_of SameStream hst.same htu.same, trans_of (WritesOnly _) hst.silent htu.silent⟩

theorem setStream_quiet {f : Stream → Stream} (h : KeepsIds f) :
    Prog.Steps Quiet (Prog.modify (setStream f) : Action (StreamOn Dialogue) Unit) :=
  fun s => ⟨setStream_sameStream h s, refl_of (WritesOnly _) _⟩

theorem send_quiet {header : Message} (h : header.command ≠ kWrte) (payload : List Byte) :
    Prog.Steps Quiet
      (onConnection (Connection.send header payload) : Action (StreamOn Dialogue) Unit) :=
  fun s => ⟨⟨rfl, rfl, rfl, rfl⟩, send_writesOnly (fun hwrte => absurd hwrte h) s.connection.session⟩

theorem receive_quiet : Prog.Steps Quiet (onConnection Connection.receive : Action (StreamOn Dialogue) Frame) :=
  fun s => ⟨⟨rfl, rfl, rfl, rfl⟩, receive_writesOnly s.connection.session⟩

theorem receiveMore_quiet : Prog.Steps Quiet (receiveMore : Action (StreamOn Dialogue) Bool) := by
  refine Prog.Steps.loop _ (fun _ => Prog.Steps.bind receive_quiet fun f => ?_) ()
  refine Prog.Steps.bind Prog.Steps.get fun s => ?_
  refine Prog.Steps.ite (Prog.Steps.pure _) (Prog.Steps.ite ?_ ?_)
  · refine Prog.Steps.bind (setStream_quiet fun _ => ⟨rfl, rfl, rfl⟩) fun _ => ?_
    exact Prog.Steps.bind (send_quiet kOkay_ne_kWrte _) fun _ => Prog.Steps.pure _
  · refine Prog.Steps.ite (Prog.Steps.pure _) (Prog.Steps.ite ?_ (Prog.Steps.fail _))
    exact Prog.Steps.bind (setStream_quiet fun _ => ⟨rfl, rfl, rfl⟩) fun _ => Prog.Steps.pure _

theorem read_quiet (size : ℕ) :
    Prog.Steps Quiet (read size : Action (StreamOn Dialogue) (List Byte)) :=
  read_steps (fun _ h => setStream_quiet h.keepsIds) receiveMore_quiet size

/-- Closing a stream sends at most a CLSE. -/
theorem closeNow_quiet (s : StreamOn Dialogue) : Quiet s s.closeNow := by
  rw [closeNow]
  split
  · exact refl_of Quiet s
  · have hclse : (makeEmptyMessage kClse s.stream.localId s.stream.remoteId).command ≠ kWrte :=
      kClse_ne_kWrte
    exact trans_of Quiet (setStream_quiet (f := fun t => { t with closed := true })
      (fun _ => ⟨rfl, rfl, rfl⟩) s) (send_quiet hclse [] _)

end StreamOn

end Adbcpp
