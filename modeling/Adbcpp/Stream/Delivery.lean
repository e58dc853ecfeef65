import Adbcpp.Stream.Isolation

/-! Exactness of a stream: its reads hand out the payloads of its WRTEs in order, the
host acknowledges each of them once, and neither frames for other streams nor the way
the device cuts its bytes into WRTEs makes a difference to the reader. -/

namespace Adbcpp

open Protocol Dialogue

/-- A frame of the stream `localId` that ends it: a CLSE, or one that does not belong there. -/
def Ends (localId : UInt32) (f : Frame) : Prop :=
  f.header.arg1 = localId ∧ f.header.command ≠ kWrte ∧ f.header.command ≠ kOkay

instance (localId : UInt32) (f : Frame) : Decidable (Ends localId f) :=
  inferInstanceAs (Decidable (_ ∧ _))

/-- Frames that do not end the stream bring it the payloads of its WRTEs, in order. -/
theorem upcoming_frames {localId : UInt32} {frames : List Frame}
    (h : ∀ f ∈ frames, ¬ Ends localId f) (rest : List Arrival) :
    upcoming localId (frames.map .frame ++ rest) =
      ((frames.filter (IsData localId ·)).flatMap Frame.payload ++ (upcoming localId rest).1,
        (upcoming localId rest).2) := by
  induction frames with
  | nil => simp
  | cons f frames ih =>
    have hrest := ih fun g hg => h g (List.mem_cons_of_mem _ hg)
    rw [List.map_cons, List.cons_append]
    by_cases hdata : IsData localId f
    · rw [upcoming, if_neg (not_not.mpr hdata.1), if_pos hdata.2, hrest,
        List.filter_cons_of_pos (by simpa using hdata), List.flatMap_cons, List.append_assoc]
    · have hskips : StreamOn.Skips localId f := by
        by_cases hid : f.header.arg1 = localId
        · have hwrte : f.header.command ≠ kWrte := fun hw => hdata ⟨hid, hw⟩
          by_cases hokay : f.header.command = kOkay
          · exact .inr hokay
          · exact absurd ⟨hid, hwrte, hokay⟩ (h f List.mem_cons_self)
        · exact .inl hid
      rw [StreamOn.upcoming_skips hskips, hrest, List.filter_cons_of_neg (by simpa using hdata)]

namespace StreamOn

/-- A stream as `Stream::open` returns it. -/
def Opened {σ : Type} [Channel σ] (s : StreamOn σ) : Prop :=
  ∃ service c, (Stream.open service).run c = (.ok s.stream, s.connection)

/-- A stream that has been opened over a session that is still open. -/
theorem awaitOpen_open (s : StreamOn Dialogue) :
    ∀ s', awaitOpen.run s = (.ok (), s') → s'.connection.session.closed = false := by
  refine Prog.loop_induct awaitOpenTurn_decreases (P := fun _ _ r => ∀ s', r = (.ok (), s') →
    s'.connection.session.closed = false) ?_ ?_ ?_ () s
  · intro b b' s t r hb ih
    exact ih
  · intro b a s t hb s' hr
    cases hr
    obtain ⟨f, u, hrecv, hb⟩ := Prog.bind_eq_ok hb
    obtain ⟨hopen, rest, -, rfl⟩ := receive_inv hrecv
    rw [Prog.run_bind_get] at hb
    split at hb
    · cases hb
    split at hb
    · cases hb
    cases hb
    exact hopen
  · intro b e s t hb s' hr
    cases hr

theorem Opened.drained {s : StreamOn Dialogue} (h : s.Opened) :
    s.Drained ∧ s.connection.session.closed = false := by
  obtain ⟨service, c, hopen⟩ := h
  obtain ⟨hsend, hstream⟩ := Stream.open_ok hopen
  refine ⟨congrArg Stream.incoming hstream, ?_⟩
  rw [sendOpen, Prog.run_bind_get] at hsend
  obtain ⟨m, t, -, hsend⟩ := Prog.bind_eq_ok hsend
  obtain ⟨_, u, -, hawait⟩ := Prog.bind_eq_ok hsend
  exact awaitOpen_open u _ hawait

theorem runReads_exchanges (sizes : List ℕ) (s : StreamOn Dialogue) :
    Exchanges s (runReads sizes s).2.2 := by
  induction sizes generalizing s with
  | nil =>
    have hall := readAll_exchanges s
    rw [runReads]
    generalize readAll.run s = q at hall
    obtain ⟨r, s'⟩ := q
    cases r <;> exact hall
  | cons size sizes ih =>
    have hread := read_exchanges size s
    rw [runReads]
    generalize (read size).run s = q at hread
    obtain ⟨r, s'⟩ := q
    cases r with
    | ok bytes => exact trans_of Exchanges hread (ih s')
    | error e => exact hread

/-- What holds of reads of the given sizes and a `readAll` after them. -/
structure Exact (s : StreamOn Dialogue) (sizes : List ℕ) : Prop where
  /-- The bytes handed out are a prefix of the payloads of the stream's WRTEs. -/
  handed : (runReads sizes s).1.flatten <+:
    (upcoming s.stream.localId s.connection.session.inbox).1
  /-- They are all of them when `readAll` returns. -/
  whole : (runReads sizes s).2.1 = .ok () → (runReads sizes s).1.flatten =
    (upcoming s.stream.localId s.connection.session.inbox).1
  /-- Each WRTE consumed is answered with one OKAY before the next frame, and nothing else is sent. -/
  acknowledged : Consumes s (runReads sizes s).2.2
  /-- Frames for other streams change neither the results nor the messages sent. -/
  isolated : ∀ t, SameOwn s t → (runReads sizes t).1 = (runReads sizes s).1 ∧
    (runReads sizes t).2.1 = (runReads sizes s).2.1 ∧
    sentFrames (runReads sizes t).2.2.connection.session.trace =
      sentFrames (runReads sizes s).2.2.connection.session.trace
  /-- The results depend only on the bytes of the WRTEs and on what ends them. -/
  resplit : ∀ t : StreamOn Dialogue, t.Opened → t.AllAccepted →
    upcoming t.stream.localId t.connection.session.inbox =
      upcoming s.stream.localId s.connection.session.inbox →
    (runReads sizes t).1 = (runReads sizes s).1 ∧ (runReads sizes t).2.1 = (runReads sizes s).2.1

/-- Every run of reads on a stream that was opened is exact while the sends succeed. -/
theorem runReads_exact {s : StreamOn Dialogue} (hopened : s.Opened) (hacc : s.AllAccepted)
    (sizes : List ℕ) : Exact s sizes := by
  obtain ⟨hdrained, hopen⟩ := hopened.drained
  have hsource := Prod.mk.inj hdrained.source
  obtain ⟨hpieces, hresult⟩ := runReads_handOut sizes (accepts_of_all hopen hacc 0)
  obtain ⟨hpart, hwhole⟩ := handOut_prefix sizes s.source s.ending
  rw [← hpieces, hsource.1] at hpart
  rw [← hpieces, ← hresult, hsource.1] at hwhole
  refine ⟨hpart, hwhole, (runReads_exchanges sizes s).consumes hacc,
    fun t ht => runReads_sameOwn sizes ht, fun t htopened htacc ht => ?_⟩
  obtain ⟨htdrained, htopen⟩ := htopened.drained
  obtain ⟨hpieces', hresult'⟩ := runReads_handOut sizes (accepts_of_all htopen htacc 0)
  have hsame := Prod.mk.inj (htdrained.source.trans (ht.trans hdrained.source.symm))
  rw [hpieces, hresult, hpieces', hresult', hsame.1, hsame.2]
  exact ⟨rfl, rfl⟩

/-- A WRTE that the device sends to the stream with the given local id. -/
def deviceWrite (localId : UInt32) (payload : List Byte) : Frame where
  header := { command := kWrte, arg0 := 7, arg1 := localId,
              dataLength := UInt32.ofNat payload.length, magic := Message.computeMagic kWrte }
  payload := payload

/-- The device accepts the stream, then data and acknowledgements arrive with a frame for
another stream among them. -/
def deviceAnswers : Connection Dialogue where
  session := { inbox := [.frame ⟨makeEmptyMessage kOkay 7 2, []⟩, .frame (deviceWrite 2 [1, 2, 3]),
    .frame ⟨makeEmptyMessage kClse 8 3, []⟩, .frame (deviceWrite 2 []),
    .frame ⟨makeEmptyMessage kOkay 7 2, []⟩, .frame (deviceWrite 2 [4]),
    .frame ⟨makeEmptyMessage kClse 7 2, []⟩] }

def syncStream : StreamOn Dialogue where
  stream := { service := bytesOf "sync:", localId := 2, remoteId := 7 }
  connection := ((Stream.open (bytesOf "sync:")).run deviceAnswers).2

theorem runReads_exact_sync :
    Exact syncStream [2] ∧ (runReads [2] syncStream).1 = [[1, 2], [3, 4]] := by
  have hopened : syncStream.Opened := ⟨bytesOf "sync:", deviceAnswers, rfl⟩
  have hout : syncStream.connection.session.outcomes = [] := rfl
  exact ⟨runReads_exact hopened (fun o ho => by simp [hout] at ho) [2], rfl⟩

end StreamOn

end Adbcpp
