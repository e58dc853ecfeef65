import Adbcpp.Client.Adequacy
import Adbcpp.Session.Feeding

/-! The transport that tests use in place of a device. It hands out what it has been fed, as
much as a read asks for, and keeps what is written to it. What a client does over any
transport that feeds it the same bytes, in whatever pieces, it does over this one. -/

namespace Adbcpp.Testing

open Protocol Prog Sync

structure MockTransport where
  incoming : List Byte := []
  readPosition : ℕ := 0
  /-- The position stays within what has been fed. -/
  position_le : readPosition ≤ incoming.length := by decide
  written : List Byte := []
  closed : Bool := false

namespace MockTransport

/-- Queues bytes for the coming reads. -/
def feed (data : List Byte) (t : MockTransport) : MockTransport :=
  { t with
    incoming := t.incoming ++ data
    position_le := by
      have hle := t.position_le
      rw [List.length_append]
      omega }

/-- How many bytes the next read hands out. -/
def count (size : ℕ) (t : MockTransport) : ℕ := min (t.incoming.length - t.readPosition) size

def read (size : ℕ) : Action MockTransport (List Byte) := fun t =>
  (.ok ((t.incoming.drop t.readPosition).take (t.count size)),
    { t with
      readPosition := t.readPosition + t.count size
      position_le := by
        have hle := t.position_le
        rw [count]
        omega })

def write (data : List Byte) : Action MockTransport Unit := fun t =>
  (.ok (), { t with written := t.written ++ data })

def close (t : MockTransport) : MockTransport := { t with closed := true }

/-- A mock has no device that can arrive later, so the answer is immediate. -/
def waitReadable (t : MockTransport) : Bool := t.readPosition < t.incoming.length

/-- What has been fed and not been read. -/
def unread (t : MockTransport) : List Byte := t.incoming.drop t.readPosition

@[simp] theorem unread_feed (data : List Byte) (t : MockTransport) : (t.feed data).unread = t.unread ++ data := by
  rw [unread, feed, List.drop_append_of_le_length t.position_le, unread]

theorem count_eq (size : ℕ) (t : MockTransport) : t.count size = min size t.unread.length := by
  rw [count, unread, List.length_drop, Nat.min_comm]

/-- A read hands out the first of what is unread. -/
theorem run_read (size : ℕ) (t : MockTransport) : ∃ t', (read size).run t = (.ok (t.unread.take size), t') ∧
    t'.unread = t.unread.drop size ∧ t'.written = t.written := by
  refine ⟨((read size).run t).2, Prod.ext ?_ rfl, ?_, rfl⟩
  · show Except.ok (t.unread.take (t.count size)) = .ok (t.unread.take size)
    rw [count_eq, ← List.take_eq_take_min]
  · show t.incoming.drop (t.readPosition + t.count size) = t.unread.drop size
    rw [← List.drop_drop, count_eq]
    show t.unread.drop (min size t.unread.length) = t.unread.drop size
    rcases Nat.le_total size t.unread.length with hle | hge
    · rw [Nat.min_eq_left hle]
    · rw [Nat.min_eq_right hge, List.drop_length, List.drop_eq_nil_of_le hge]

instance : Wire MockTransport where
  read := read
  write := write
  close := close
  remaining t := t.unread.length
  read_length {size t bytes t'} h := by
    obtain ⟨u, hrun, -⟩ := run_read size t
    rw [hrun] at h
    cases h
    exact List.length_take_le _ _
  read_remaining {size t bytes t'} h := by
    obtain ⟨u, hrun, hrest, -⟩ := run_read size t
    rw [hrun] at h
    cases h
    rw [hrest, List.length_drop, List.length_take]
    omega
  write_remaining data t := Nat.le_refl _
  Moves t a b t' := t.unread = a ++ t'.unread ∧ t'.written = t.written ++ b
  moves_refl t := ⟨rfl, (List.append_nil _).symm⟩
  moves_trans h h' := ⟨by rw [h.1, h'.1, List.append_assoc], by rw [h'.2, h.2, List.append_assoc]⟩
  read_moves {size t bytes t'} h := by
    obtain ⟨u, hrun, hrest, hwritten⟩ := run_read size t
    rw [hrun] at h
    cases h
    exact ⟨by rw [hrest, List.take_append_drop], by rw [hwritten, List.append_nil]⟩
  read_fails {size t e t'} h := by
    obtain ⟨u, hrun, -⟩ := run_read size t
    rw [hrun] at h
    cases h
  write_moves h := by
    cases h
    exact ⟨rfl, rfl⟩
  write_fails h := nomatch h
  close_moves t := ⟨rfl, (List.append_nil _).symm⟩

/-- A mock feeds what has been fed to it. -/
def feeding : Feeding MockTransport where
  Feeds t bytes := t.unread = bytes
  read {size t bytes} hpos _ h := by
    subst h
    obtain ⟨t', hrun, hrest, -⟩ := run_read size t
    refine ⟨t.unread.take size, t.unread.drop size, t', hrun, (List.take_append_drop _ _).symm, fun hnil => ?_, hrest⟩
    rcases List.take_eq_nil_iff.mp hnil with hsize | hend
    · omega
    · exact hend
  write {t bytes} data h := ⟨{ t with written := t.written ++ data }, rfl, h⟩

end MockTransport

/-! ### Clients over a mock -/

variable {ι τ α : Type} [DecidableEq ι] [Wire τ]

/-- What a client does over a transport that feeds these bytes, in whatever pieces it hands them out, it
does over a mock that has been fed with them: it gets the same answers, takes the same bytes, and what the
mock keeps as written is what has gone over that transport. -/
theorem perform_mock (F : Feeding τ) (b : Build) (client : Client ι α) (s : Streams ι (Session τ)) {bytes : List Byte}
    (hopen : s.connection.session.closed = false) (h : F.Feeds s.connection.session.transport bytes) :
    ∃ session : Session MockTransport,
      (client.perform b).run (s.around { transport := ({} : MockTransport).feed bytes }) =
        (((client.perform b).run s).1, ((client.perform b).run s).2.around session) ∧
      session.closed = ((client.perform b).run s).2.connection.session.closed ∧
      ∃ taken, bytes = taken ++ session.transport.unread ∧
        Wire.Moves s.connection.session.transport taken session.transport.written
          ((client.perform b).run s).2.connection.session.transport := by
  let m : Session MockTransport := { transport := ({} : MockTransport).feed bytes }
  have hunread : m.transport.unread = bytes := by
    show (({} : MockTransport).feed bytes).unread = bytes
    rw [MockTransport.unread_feed]
    rfl
  have hstart : (Client.replay ι (Session.alike F MockTransport.feeding)).Rel s (s.around m) :=
    ⟨⟨⟨hopen.symm, fun _ => ⟨bytes, h, hunread⟩⟩, rfl⟩, rfl⟩
  obtain ⟨w, u, hlabel, hR, hrun⟩ :=
    (Client.perform_replays (Session.alike_replayed F MockTransport.feeding) b client).exists_tape hstart
  obtain ⟨taken, delivered, hmoves, htaken, hwritten⟩ := hlabel
  rw [Client.eq_around hR] at hrun
  have hkept : u.connection.session.transport.written = delivered := hwritten
  refine ⟨u.connection.session, hrun, hR.1.1.1, taken, ?_, ?_⟩
  · rw [← hunread]
    exact htaken
  · rw [hkept]
    exact hmoves

/-- A listing of the root over a device that closes the stream at once, whose answer comes in two pieces. -/
def listRoot : Client ℕ Unit := .call (.list (bytesOf "/")) fun _ => .done ()

def closedAtOnce : Frame where
  header := { command := kClse, arg1 := 2, magic := Message.computeMagic kClse }
  payload := []

def twoPieces : ScriptedTransport where
  arrivals := [.ok (closedAtOnce.bytes.take 5), .ok (closedAtOnce.bytes.drop 5)]

theorem perform_mock_twoPieces :
    let s : Streams ℕ (Session ScriptedTransport) := { connection := { session := { transport := twoPieces } } }
    let m : Streams ℕ (Session MockTransport) := s.around { transport := ({} : MockTransport).feed closedAtOnce.bytes }
    ∃ session, (listRoot.perform {}).run m =
        (((listRoot.perform {}).run s).1, ((listRoot.perform {}).run s).2.around session) ∧
      session.closed = ((listRoot.perform {}).run s).2.connection.session.closed ∧
      ∃ taken, closedAtOnce.bytes = taken ++ session.transport.unread ∧ Wire.Moves twoPieces taken
        session.transport.written ((listRoot.perform {}).run s).2.connection.session.transport := by
  refine perform_mock ScriptedTransport.feeding {} listRoot _ rfl ⟨?_, by simp [twoPieces], rfl⟩
  intro a ha
  rcases List.mem_pair.mp ha with rfl | rfl
  · exact ⟨_, rfl, by decide⟩
  · exact ⟨_, rfl, by decide⟩

end Adbcpp.Testing
