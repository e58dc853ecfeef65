import Adbcpp.Library.Triple
import Adbcpp.Stream.Reading

/-! Successful calls on a stream. Whatever becomes of the writes, a read that succeeds
has handed out the front of what there was to read, and a write that succeeds has left
that as it was. -/

namespace Adbcpp.StreamOn

open Protocol Dialogue Prog

/-- The source of a stream and its ending are all that is upcoming in `up`. -/
def Holds (up : List Byte × Ending) (s : StreamOn Dialogue) : Prop := (s.source, s.ending) = up

/-- Nothing is said of a call that fails. -/
def AnyError (_ : Error) (_ : StreamOn Dialogue) : Prop := True

variable {up : List Byte × Ending}

theorem send_holds (header : Message) (payload : List Byte) :
    Triple (Holds up) (onConnection (Connection.send header payload)) (fun _ => Holds up) AnyError := by
  intro s hs
  obtain ⟨r, d, new, hrun, -, hinbox, -, -⟩ := send_attempt header payload s.connection.session
  rw [run_onConnection, Connection.send, Connection.run_onSession, run_channel_send, hrun]
  cases r with
  | error e => trivial
  | ok u =>
    rw [Holds, source, ending] at hs
    show (s.buffered ++ (upcoming s.stream.localId d.inbox).1, (upcoming s.stream.localId d.inbox).2) = up
    rw [hinbox]
    exact hs

/-! ### Receiving -/

/-- What the inbox brings to the stream is `up`. -/
def Brings (up : List Byte × Ending) (s : StreamOn Dialogue) : Prop :=
  upcoming s.stream.localId s.connection.session.inbox = up

theorem receive_brings : Triple (Brings up) (onConnection Connection.receive)
    (fun f s => upcoming s.stream.localId (.frame f :: s.connection.session.inbox) = up) AnyError := by
  intro s hs
  match hrun : (onConnection Connection.receive).run s with
  | (.error e, t) => trivial
  | (.ok f, t) =>
    obtain ⟨-, rest, hinbox, rfl⟩ := receive_inv hrun
    rw [Brings, hinbox] at hs
    exact hs

/-- A turn that ends with a WRTE has it in the buffer, and the rest is still to come. -/
theorem receiveMoreTurn_brings (b : Unit) : Triple (Brings up) (receiveMoreTurn b)
    (NextTurn (fun _ => Brings up) fun more s => more = true → Holds up s) AnyError := by
  refine Triple.bind receive_brings fun f => Triple.get_bind fun t ht => ?_
  rw [upcoming] at ht
  refine Triple.ite (fun hid => ?_) fun hid => ?_
  · rw [if_pos hid] at ht
    exact Triple.pure fun s hs => hs ▸ ht
  rw [if_neg hid] at ht
  refine Triple.ite (fun hwrte => ?_) fun hwrte => ?_
  · rw [if_pos hwrte] at ht
    refine Triple.bind (R := fun _ => Holds up) (Triple.modify fun s hs => ?_) fun _ => ?_
    · subst hs
      exact ht
    · exact Triple.bind (send_holds _ _) fun _ => Triple.pure fun s hs _ => hs
  rw [if_neg hwrte] at ht
  refine Triple.ite (fun hokay => ?_) fun hokay => ?_
  · rw [if_pos hokay] at ht
    exact Triple.pure fun s hs => hs ▸ ht
  refine Triple.ite (fun hclse => ?_) fun hclse => Triple.fail fun _ _ => trivial
  refine Triple.bind (R := fun _ _ => True) (Triple.modify fun _ _ => trivial) fun _ => ?_
  exact Triple.pure fun _ _ hfalse => absurd hfalse (by decide)

theorem receiveMore_brings :
    Triple (Brings up) receiveMore (fun more s => more = true → Holds up s) AnyError :=
  Triple.loop receiveMoreTurn_decreases (I := fun _ => Brings up) receiveMoreTurn_brings ()

/-! ### Reading -/

theorem fillBuffer_holds : Triple (Holds up) fillBuffer (fun _ => Holds up) AnyError := by
  refine Triple.get_bind fun t ht => Triple.ite (fun hempty => ?_) fun _ => ?_
  swap
  · exact Triple.pure fun s hs => hs ▸ ht
  have hbrings : Brings up t := by
    rw [Holds, source, ending, buffered, List.drop_eq_nil_of_le hempty, List.nil_append] at ht
    exact ht
  have hmore : Triple (fun s => s = t) receiveMore (fun more s => more = true → Holds up s) AnyError :=
    receiveMore_brings.conseq (fun s hs => hs ▸ hbrings) (fun _ _ h => h) fun _ _ h => h
  refine Triple.bind hmore fun more => ?_
  cases more with
  | true => exact Triple.pure fun s hs => hs rfl
  | false => exact Triple.fail fun _ _ => trivial

/-- The bytes that a read hands out have been in front of what there is to read after it. -/
theorem read_holds (size : ℕ) (bytes : List Byte) (e : Ending) : Triple (Holds (bytes, e)) (read size)
    (fun out s => out.length = size ∧ ∃ rest, bytes = out ++ rest ∧ Holds (rest, e) s) AnyError := by
  let handed (out : List Byte) (s : StreamOn Dialogue) := ∃ rest, bytes = out ++ rest ∧ Holds (rest, e) s
  have hturn : ∀ out, Triple (handed out) (readTurn size out) (NextTurn handed handed) AnyError := by
    intro out
    refine Triple.ite (fun _ => ?_) fun _ => Triple.pure fun _ h => h
    rintro s ⟨rest, rfl, hs⟩
    refine Triple.bind fillBuffer_holds (fun _ t ht => ?_) s hs
    obtain ⟨taken, t', htake, hsplit, -, hend, -⟩ := takeBuffered_source (k := 0) (size - out.length) t
    rw [Prog.run_bind_ok htake]
    obtain ⟨hsource, hending⟩ := Prod.mk.inj ht
    refine ⟨t'.source, ?_, ?_⟩
    · rw [← hsource, hsplit, List.append_assoc]
    · rw [Holds, hend, hending]
  intro s hs
  have hends : Prog.Ends handed AnyError ((read size).run s) :=
    Triple.loop (readTurn_decreases size) hturn [] s ⟨bytes, rfl, hs⟩
  match hrun : (read size).run s with
  | (.error _, t) => trivial
  | (.ok out, t) =>
    rw [hrun] at hends
    exact ⟨(read_ok hrun).1, hends⟩

/-! ### Writing -/

theorem write_holds (data : List Byte) : Triple (Holds up) (write data) (fun _ => Holds up) AnyError := by
  refine Triple.get_bind fun t ht => Triple.ite (fun _ => Triple.fail fun _ _ => trivial) fun _ => ?_
  refine Triple.bind (R := fun _ => Holds up) (Triple.lift ?_ ?_) fun m => send_holds m data
  · rintro _ s - rfl
    exact ht
  · exact fun _ _ _ _ => trivial

end Adbcpp.StreamOn
