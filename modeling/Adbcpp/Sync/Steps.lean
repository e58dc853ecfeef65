import Mathlib.Order.RelClasses
import Adbcpp.Sync

/-! What holds across every read of a stream, and across the writes that a transfer makes on
it, holds across the whole transfer. -/

namespace Adbcpp.Sync

open Protocol StreamOn

variable {σ φ α : Type} {R : StreamOn σ → StreamOn σ → Prop}

/-- What holds between two states of a transfer when `R` holds between those of its stream. -/
abbrev Along (R : StreamOn σ → StreamOn σ → Prop) : Job σ φ → Job σ φ → Prop := Order.Preimage Job.on R

theorem onStream_along {p : Action (StreamOn σ) α} (h : Prog.Steps R p) :
    Prog.Steps (Along R) (onStream p : Action (Job σ φ) α) := Prog.Steps.zoom h fun _ _ hR => hR

variable [Std.Refl R]

theorem onFile_along (p : Action φ α) : Prog.Steps (Along R) (onFile p : Action (Job σ φ) α) :=
  fun j => refl_of R j.on

variable [IsTrans (StreamOn σ) R] [Channel σ]

theorem syncFail_steps (hread : ∀ size, Prog.Steps R (read size)) :
    Prog.Steps R (syncFail : Action (StreamOn σ) α) := by
  refine Prog.Steps.bind (hread 4) fun length => ?_
  exact Prog.Steps.bind (hread _) fun reason => Prog.Steps.fail _

theorem readStatus_steps (hread : ∀ size, Prog.Steps R (read size)) :
    Prog.Steps R (readStatus : Action (StreamOn σ) Unit) := by
  refine Prog.Steps.bind (hread 4) fun id => ?_
  refine Prog.Steps.ite (syncFail_steps hread) ?_
  refine Prog.Steps.ite (Prog.Steps.fail _) ?_
  exact Prog.Steps.bind (hread 4) fun length => Prog.Steps.pure _

/-- A pull reads, and writes a QUIT. -/
theorem receiveFile_along (hread : ∀ size, Prog.Steps R (read size)) (hquit : Prog.Steps R writeQuit)
    (limit : ℕ) (tooLarge : String) (decoder : ChunkDecoder) :
    Prog.Steps (Along R) (receiveFile limit tooLarge decoder) := by
  have hturn : ∀ state, Prog.Steps (Along R) (receiveTurn limit tooLarge decoder state) := by
    intro state
    refine Prog.Steps.bind (onStream_along (hread 4)) fun id => ?_
    refine Prog.Steps.ite (onStream_along (syncFail_steps hread)) ?_
    refine Prog.Steps.bind (onStream_along (hread 4)) fun size => ?_
    refine Prog.Steps.ite (Prog.Steps.pure _) (Prog.Steps.ite (Prog.Steps.fail _) ?_)
    refine Prog.Steps.ite (Prog.Steps.fail _) ?_
    refine Prog.Steps.bind (onStream_along (hread _)) fun chunk => ?_
    generalize (decoder.decode chunk).run state = decoded
    obtain ⟨result, state'⟩ := decoded
    refine Prog.Steps.bind (Prog.Steps.lift _) fun bytes => ?_
    refine Prog.Steps.bind (onFile_along _) fun _ => Prog.Steps.bind Prog.Steps.get fun job => ?_
    exact Prog.Steps.ite (Prog.Steps.fail _) (Prog.Steps.pure _)
  refine Prog.Steps.ensuring (Prog.Steps.bind (onFile_along _) fun _ => ?_) fun j => refl_of R j.on
  refine Prog.Steps.bind Prog.Steps.get fun job => Prog.Steps.ite (Prog.Steps.fail _) ?_
  exact Prog.Steps.bind (Prog.Steps.loop _ hturn _) fun _ => onStream_along hquit

/-- A push writes the blocks of its file as they are encoded, a DONE and a QUIT. -/
theorem sendFile_along {encode : List Byte → Except Error (List Byte)}
    (hread : ∀ size, Prog.Steps R (read size)) (hquit : Prog.Steps R writeQuit)
    (hdone : ∀ mtime, Prog.Steps R (write (writeU32LE kDone ++ writeU32LE mtime)))
    (hdata : ∀ block payload, 1 ≤ block.length → block.length ≤ kMaxChunkSize →
      encode block = .ok payload → Prog.Steps R (write (packet kData payload))) :
    Prog.Steps (Along R) (sendFile encode) := by
  have hturn : ∀ b, Prog.Steps (Along R) (sendTurn encode b) := by
    intro b
    refine Prog.Steps.bind Prog.Steps.get fun job => Prog.Steps.ite ?_ (Prog.Steps.pure _)
    refine Prog.Steps.bind_run (onFile_along _) fun block j j' hblock => ?_
    obtain ⟨file, hfile, -⟩ := Prog.zoom_eq_ok hblock
    obtain ⟨input, hinput, -⟩ := Prog.zoom_eq_ok hfile
    have hle := InputFile.read_le hinput
    by_cases hempty : block.length = 0
    · rw [if_pos hempty]
      exact Prog.Steps.pure _ j'
    rw [if_neg hempty]
    refine Prog.Steps.bind_run (Prog.Steps.lift _) (fun payload t t' hlift => ?_) j'
    have hencode : encode block = .ok payload := (Prod.mk.inj hlift).1
    have hwrite := hdata block payload (Nat.one_le_iff_ne_zero.mpr hempty) hle hencode
    exact Prog.Steps.bind (onStream_along hwrite) (fun _ => Prog.Steps.pure _) t'
  refine Prog.Steps.bind Prog.Steps.get fun job => Prog.Steps.ite (Prog.Steps.fail _) ?_
  refine Prog.Steps.bind (Prog.Steps.loop _ hturn ()) fun _ => ?_
  refine Prog.Steps.bind Prog.Steps.get fun job => Prog.Steps.ite (Prog.Steps.fail _) ?_
  refine Prog.Steps.bind (onStream_along (hdone _)) fun _ => ?_
  refine Prog.Steps.bind (onStream_along (readStatus_steps hread)) fun _ => ?_
  exact onStream_along hquit

end Adbcpp.Sync
