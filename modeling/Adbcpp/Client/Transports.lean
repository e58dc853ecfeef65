import Adbcpp.Client.Adequacy
import Adbcpp.Tcp.Transport
import Adbcpp.Usb.Link

/-! The clients over the transports of the library. Over TCP the bytes that a client's dialogue
takes come off the front of what the peer sends, and what the dialogue sends is what the
peer receives. Over USB they are those that the reads have handed out, which are a
beginning of what the accepted transfers have moved as long as no read fails. -/

namespace Adbcpp

open Sync

namespace Client

variable {ι α : Type} [DecidableEq ι]

/-- Over TCP nothing of what the peer sends is lost, repeated or out of order, whatever fails. -/
theorem perform_tcp (b : Build) (client : Client ι α) (s : Streams ι (Session Tcp.TcpTransport)) :
    Mirrored b client s fun taken delivered t =>
      Tcp.TcpTransport.content s.connection.session.transport.receipts =
          taken ++ Tcp.TcpTransport.content t.receipts ∧
        t.impl.delivered = s.connection.session.transport.impl.delivered ++ delivered :=
  perform_mirrored b client s

/-- Over a USB transport that starts with an empty buffer, the bytes of a client's dialogue are a beginning
of those that the accepted transfers have moved, as long as no read has failed. -/
theorem perform_usb (b : Build) (client : Client ι α) (s : Streams ι (Session Usb.Link)) {out : Usb.Outward}
    (hstart : s.connection.session.transport = { out })
    (hempty : out.impl.incoming = [] ∧ out.impl.incomingOffset = 0) (hfresh : out.impl.attempts = []) :
    Mirrored b client s fun taken delivered t =>
      t.out.delivered = out.delivered ++ delivered ∧
        (t.failedReads = 0 → Usb.acceptedBytes t.out.impl.attempts = taken ++ t.out.impl.buffered) := by
  refine (perform_mirrored b client s).imp fun taken delivered t hmoves => ?_
  obtain ⟨htaken, hdelivered, -, haccounted⟩ := hmoves
  rw [hstart] at htaken hdelivered haccounted
  refine ⟨hdelivered, fun hfailed => ?_⟩
  have hend := (haccounted hfailed (Usb.Impl.accounted_empty hempty hfresh)).bytes
  rwa [htaken] at hend

end Client

end Adbcpp
