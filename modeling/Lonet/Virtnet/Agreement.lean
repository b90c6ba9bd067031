import Lonet.Virtnet.Down

/-!
# Dialer and acceptor agree on addresses

`Host.dial` (`xnet/lonet/__init__.py:490-513`) returns a conn whose peer is the address it read
in the `connected` reply, and `listener.accept` (`:400-451`) one whose peer is the source address
`__loaccept` read in the dial line (`:803-843`, `:878-912`). For the two conns over one OS
connection these are each other's local addresses (`dial_accept_agree`), in every reachable
state: for any host names and ports, any subnetworks of the network, and any interleaving with
other dials and accepts.

The proof is the invariant of `Lonet.Virtnet.Invariant` read at the two conns: each records both
ends of its OS connection (`ConnOk`), because each side reads back exactly what the other wrote
(`replyOk_parse`, `dialLineOk_parse`), and the acceptor of an OS connection, once recorded, is
the socket its one `Accept` named.
-/

namespace Lonet

/-- **Dialer and acceptor agree on addresses.** In a reachable state, a dialer's conn `Cd` and
an accepted conn `Ca` over the same OS connection see the same two addresses: the dialer's peer
is the acceptor's socket, and the acceptor's peer is the dialer's socket. -/
theorem dial_accept_agree {s : Sys} (hs : Reachable s) {cd ca : Nat} {Cd Ca : Conn}
    (hd : s.conns cd = some Cd) (ha : s.conns ca = some Ca) (hsd : Cd.side = .client)
    (hsa : Ca.side = .server) (hk : Cd.osconn = Ca.osconn) :
    s.sockAddr Ca.socket = some Cd.peerAddr ∧ s.sockAddr Cd.socket = some Ca.peerAddr := by
  have hi := hs.inv
  obtain ⟨K, hK, hcd⟩ := hi.conns cd Cd hd
  obtain ⟨K', hK', hca⟩ := hi.conns ca Ca ha
  rw [hk, hK'] at hK
  cases hK
  rw [hsd] at hcd
  rw [hsa] at hca
  obtain ⟨hdial, sk, hacc, hsk⟩ := hcd
  obtain ⟨hacc', hdia⟩ := hca
  rw [hacc] at hacc'
  cases hacc'
  exact ⟨hsk, hdia _ hdial⟩

/-- `acceptRun`, then `accept` returns: `a.dial("b:1")` (thread `8`) has been accepted by
`l.accept()` (thread `11`). -/
def handshakeRun : List Act := acceptRun ++ [.run 11]

/-- The state `handshakeRun` ends in. -/
def handshakeState : Sys := Sys.ofRun handshakeRun

/-- The conn `a.dial("b:1")` returns (`14`, on `a:1`) and the one `l.accept()` returns (`15`, on
`b:2`) see `b:2` and `a:1` as their peers. -/
theorem dial_accept_agree_handshake :
    ∃ Cd Ca, handshakeState.conns 14 = some Cd ∧ handshakeState.conns 15 = some Ca ∧
      handshakeState.sockAddr Ca.socket = some Cd.peerAddr ∧
      handshakeState.sockAddr Cd.socket = some Ca.peerAddr :=
  ⟨_, _, rfl, rfl, @dial_accept_agree _
    (@Reachable.run _ handshakeState handshakeRun
      (.init [lonetX] (fun _ => ⟨true, true, [], []⟩) (by decide)) rfl)
    14 15 _ _ rfl rfl rfl rfl rfl⟩

end Lonet
