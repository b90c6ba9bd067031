import Lonet.Virtnet.System

/-!
# `new_host`

`new_host(name)` first announces the name in the registry and then, under `_hostmu`, adds the
host to `_hostmap`. The registry reports a name already announced as a `RegistryError` whose
`.err` is `ErrHostDup`, and `new_host` wraps it in its context with the traceback. `xerr`
registers no `RegistryError` as well-defined, so the text of the error carries a
`cause traceback` section (`newHost_dup_traceback`).
-/

namespace Lonet

namespace Sys

/-- `_vnet_newhost` of a name already in the registry fails with `ErrHostDup` inside a
`RegistryError`. -/
theorem vnetNewhost_dup {s : Sys} {N : Subnet} {name : Bytes} (hosl : N.oslClosed = false)
    (hpool : N.poolClosed = false) (hdb : (s.files N.file).HostsOk)
    (hmem : name ∈ (s.files N.file).hosts.map (·.1)) :
    s.vnetNewhost N name =
      .error (.registryError (.net .hostDup) N.uri (ascii "announce") [name, oslAddr N]) := by
  rw [vnetNewhost, hosl, hpool]
  exact announce_dup hdb hmem

/-- **A duplicate host name leaks a traceback.** `new_host` of a name already in the registry
fails, in one step and touching nothing else, with an error whose cause is a `RegistryError`
carrying `ErrHostDup`, and whose text has a `cause traceback` section. -/
theorem newHost_dup_traceback {s : Sys} {i n : Nat} {N : Subnet} {name : Bytes}
    (ht : s.tasks i = some (.newHost n name)) (hN : s.nets n = some N)
    (hosl : N.oslClosed = false) (hpool : N.poolClosed = false) (hdb : (s.files N.file).HostsOk)
    (hmem : name ∈ (s.files N.file).hosts.map (·.1)) :
    ∃ e, s.step (.run i) = some (s.setTask i (.newHostDone (.error e))) ∧
      cause e = .registryError (.net .hostDup) N.uri (ascii "announce") [name, oslAddr N] ∧
      tracebackSection <:+: pyStr e := by
  refine ⟨.wrap (newHostCtx N name)
    (.registryError (.net .hostDup) N.uri (ascii "announce") [name, oslAddr N]) true, ?_, rfl,
    ⟨newHostCtx N name ++ ascii ": " ++
      pyStr (.registryError (.net .hostDup) N.uri (ascii "announce") [name, oslAddr N]), [],
      by simp [pyStr, wellDefined]⟩⟩
  simp only [step, ht, Option.bind_eq_bind, Option.some_bind, runTask, hN,
    vnetNewhost_dup hosl hpool hdb hmem]

/-- Subnetwork `lonetX` whose registry already holds host `α`, with a thread (task `0`) calling
`new_host("α")`. -/
def alphaTaken : Sys :=
  { Sys.init [Subnet.joined (ascii "lonetX") (ascii "r.db") 0 0]
      (fun _ => ⟨true, true, [(ascii "α", ascii "127.0.0.1:1")], []⟩) with
    tasks := upd (fun _ => none) 0 (some (.newHost 0 (ascii "α"))) }

/-- `new_host("α")` on `lonetX` fails with a traceback in its text. -/
theorem newHost_dup_traceback_alpha :
    ∃ e, alphaTaken.step (.run 0) = some (alphaTaken.setTask 0 (.newHostDone (.error e))) ∧
      cause e = .registryError (.net .hostDup) (ascii "r.db") (ascii "announce")
        [ascii "α", oslAddr (Subnet.joined (ascii "lonetX") (ascii "r.db") 0 0)] ∧
      tracebackSection <:+: pyStr e :=
  newHost_dup_traceback (N := Subnet.joined (ascii "lonetX") (ascii "r.db") 0 0) rfl rfl rfl rfl
    ⟨rfl, by decide⟩ (by decide)

end Sys

end Lonet
