import Lonet.Quote
import Lonet.Xerr
import Mathlib.Data.List.Nodup

/-!
# The SQLite registry

`SQLiteRegistry` (`xnet/lonet/__init__.py:1040-1144`) keeps a network's hosts in a shared
database file: table `hosts` (host name to the address of its subnetwork's OS listener) and
table `meta` (`schemaver`, `network`). Every public call goes through `_regerr`, which turns
any escaping error into a `RegistryError`.

The connections run in autocommit mode, so each SQL statement is its own transaction. The
opening of a registry (`_setup`) is therefore a sequence of atomic statements, and openers of
one file interleave statement by statement: `Opener.step` is one statement of one opener.
Two openers of a fresh file can both read an empty `network` and both write their own
(`openers_race`).

On an open pool the hosts table refines a map from host names to addresses in which the first
`announce` of a name wins (`announce_query_refines`).
-/

namespace Lonet

/-- The two tables of a registry file, rows in insertion order; `hostsTable` and `metaTable`
say whether their `CREATE TABLE` has run. -/
structure RegDb where
  hostsTable : Bool
  metaTable : Bool
  hosts : List (Bytes × Bytes)
  meta : List (Bytes × Bytes)
  deriving DecidableEq, Repr

namespace RegDb

/-- A fresh database file. -/
def empty : RegDb := ⟨false, false, [], []⟩

/-- SQLite's error for a statement on a table that does not exist. -/
def noTable (t : Bytes) : Exc := .sqliteError (ascii "no such table: " ++ t)

/-- `SELECT value FROM meta WHERE name = ?`. -/
def selectMeta (db : RegDb) (name : Bytes) : Except Exc (List Bytes) :=
  if db.metaTable then .ok ((db.meta.filter (·.1 == name)).map (·.2))
  else .error (noTable (ascii "meta"))

/-- `INSERT OR REPLACE INTO meta (name, value) VALUES (?, ?)`. -/
def replaceMeta (db : RegDb) (name value : Bytes) : Except Exc RegDb :=
  if db.metaTable then .ok { db with meta := db.meta.filter (·.1 != name) ++ [(name, value)] }
  else .error (noTable (ascii "meta"))

/-- `SELECT osladdr FROM hosts WHERE hostname = ?`. -/
def selectHost (db : RegDb) (hostname : Bytes) : Except Exc (List Bytes) :=
  if db.hostsTable then .ok ((db.hosts.filter (·.1 == hostname)).map (·.2))
  else .error (noTable (ascii "hosts"))

/-- The `IntegrityError` message of a second row with one `hostname`. -/
def uniqueFailed : Bytes := ascii "UNIQUE constraint failed: hosts.hostname"

/-- `INSERT INTO hosts (hostname, osladdr) VALUES (?, ?)`; `hostname` is the primary key. -/
def insertHost (db : RegDb) (hostname osladdr : Bytes) : Except Exc RegDb :=
  if !db.hostsTable then .error (noTable (ascii "hosts"))
  else if db.hosts.any (·.1 == hostname) then .error (.sqliteError uniqueFailed)
  else .ok { db with hosts := db.hosts ++ [(hostname, osladdr)] }

end RegDb

/-- The exception `_regerr` raises for `err` escaping call `op` with arguments `argv`. -/
def regerrExc (uri op : Bytes) (argv : List Bytes) (err : Exc) : Exc :=
  .registryError (if wellDefined err then err else .wrap (ascii "BUG") err true) uri op argv

/-- `_regerr`: the registry call `x`, its error turned into a `RegistryError`. -/
def regerr {α : Type} (uri op : Bytes) (argv : List Bytes) (x : Except Exc α) : Except Exc α :=
  x.tryCatch fun e => .error (regerrExc uri op argv e)

/-- `DBPool.get` on a closed pool. -/
def poolClosed : Exc := .runtimeError (ascii "sqlite: pool: get on closed pool")

/-- `announce` turns the `IntegrityError` of a duplicate name into `ErrHostDup`. -/
def hostDupOf : Exc → Exc
  | .sqliteError m =>
    if (ascii "UNIQUE constraint failed").isPrefixOf m then .net .hostDup else .sqliteError m
  | e => e

/-- `SQLiteRegistry.announce(hostname, osladdr)`, `closed` telling whether the registry's
pool is closed. -/
def announce (uri : Bytes) (closed : Bool) (db : RegDb) (hostname osladdr : Bytes) :
    Except Exc RegDb :=
  regerr uri (ascii "announce") [hostname, osladdr] <|
    if closed then .error poolClosed else (db.insertHost hostname osladdr).mapError hostDupOf

/-- What `query` returns for the rows found: none, the one address, or an error. -/
def hostRow : List Bytes → Except Exc (Option Bytes)
  | [] => .ok none
  | [a] => .ok (some a)
  | _ => .error (.error (ascii "registry broken: duplicate host entries"))

/-- `SQLiteRegistry.query(hostname)`: the address announced for `hostname`, if any. -/
def query (uri : Bytes) (closed : Bool) (db : RegDb) (hostname : Bytes) :
    Except Exc (Option Bytes) :=
  regerr uri (ascii "query") [hostname] <|
    if closed then .error poolClosed else db.selectHost hostname >>= hostRow

/-! ## Announce and query -/

@[simp] theorem regerr_ok {α : Type} {uri op : Bytes} {argv : List Bytes} {x : Except Exc α}
    {a : α} : regerr uri op argv x = .ok a ↔ x = .ok a := by
  cases x <;> simp [regerr, Except.tryCatch]

@[simp] theorem regerr_error {α : Type} {uri op : Bytes} {argv : List Bytes} {e : Exc} :
    regerr uri op argv (.error e : Except Exc α) = .error (regerrExc uri op argv e) := rfl

theorem insertHost_ok {db db' : RegDb} {hostname osladdr : Bytes}
    (h : db.insertHost hostname osladdr = .ok db') :
    db.hostsTable = true ∧ hostname ∉ db.hosts.map (·.1) ∧
      db' = { db with hosts := db.hosts ++ [(hostname, osladdr)] } := by
  unfold RegDb.insertHost at h
  cases ht : db.hostsTable <;> cases hd : db.hosts.any (·.1 == hostname) <;>
    simp only [ht, hd, Bool.not_true, Bool.not_false, ite_true, ite_false, Bool.false_eq_true,
      reduceCtorEq, Except.ok.injEq] at h
  refine ⟨rfl, fun hm => ?_, h.symm⟩
  obtain ⟨x, hx, rfl⟩ := List.mem_map.1 hm
  simpa using List.any_eq_false.1 hd x hx

theorem announce_ok {uri hostname osladdr : Bytes} {closed : Bool} {db db' : RegDb}
    (h : announce uri closed db hostname osladdr = .ok db') :
    closed = false ∧ db.hostsTable = true ∧ hostname ∉ db.hosts.map (·.1) ∧
      db' = { db with hosts := db.hosts ++ [(hostname, osladdr)] } := by
  unfold announce at h
  cases closed
  · cases hi : db.insertHost hostname osladdr with
    | error e => simp [hi, Except.mapError] at h
    | ok d =>
      simp only [regerr_ok, Bool.false_eq_true, ite_false, hi, Except.mapError,
        Except.ok.injEq] at h
      exact ⟨rfl, h ▸ insertHost_ok hi⟩
  · simp at h

/-- A well-formed hosts table: created, one row per host name. -/
def RegDb.HostsOk (db : RegDb) : Prop := db.hostsTable = true ∧ (db.hosts.map (·.1)).Nodup

/-- Announcing keeps the hosts table well formed. -/
theorem announce_hostsOk {uri hostname osladdr : Bytes} {closed : Bool} {db db' : RegDb}
    (h : announce uri closed db hostname osladdr = .ok db') (hdb : db.HostsOk) : db'.HostsOk := by
  obtain ⟨-, -, hn, rfl⟩ := announce_ok h
  refine ⟨hdb.1, ?_⟩
  simpa [List.nodup_append, hn] using hdb.2

/-- On an open pool and a well-formed table, announcing a host name already present fails with
`ErrHostDup`, wrapped by `_regerr`. -/
theorem announce_dup {uri hostname osladdr : Bytes} {db : RegDb} (hdb : db.HostsOk)
    (hmem : hostname ∈ db.hosts.map (·.1)) :
    announce uri false db hostname osladdr =
      .error (.registryError (.net .hostDup) uri (ascii "announce") [hostname, osladdr]) := by
  obtain ⟨a, ha, rfl⟩ := List.mem_map.1 hmem
  have hany : db.hosts.any (·.1 == a.1) = true := List.any_eq_true.2 ⟨a, ha, by simp⟩
  have hdup : hostDupOf (.sqliteError RegDb.uniqueFailed) = .net .hostDup := by decide
  simp [announce, RegDb.insertHost, hdb.1, hany, Except.mapError, hdup, regerrExc, wellDefined]

/-! ## The hosts table as a map -/

/-- What the hosts table is for: each host name bound to at most one address, the first
`announce` of a name binding it. `bindAll m reqs` is `m` after announcing `reqs` in order. -/
def bindAll (m : Bytes → Option Bytes) : List (Bytes × Bytes) → Bytes → Option Bytes
  | [] => m
  | (h, a) :: reqs => bindAll (fun h' => (m h').or (if h' = h then some a else none)) reqs

/-- `announce(hostname, osladdr)` for each request in order on an open pool; a call that
raises leaves the table as it was. -/
def announceAll (uri : Bytes) (db : RegDb) : List (Bytes × Bytes) → RegDb
  | [] => db
  | (h, a) :: reqs =>
    match announce uri false db h a with
    | .ok db' => announceAll uri db' reqs
    | .error _ => announceAll uri db reqs

/-- The rows `SELECT` finds for a name, in a table with one row per name. -/
theorem filter_host_eq_lookup {hosts : List (Bytes × Bytes)} (hnd : (hosts.map (·.1)).Nodup)
    (h : Bytes) : (hosts.filter (·.1 == h)).map (·.2) = (hosts.lookup h).toList := by
  induction hosts with
  | nil => rfl
  | cons x xs ih =>
    obtain ⟨k, v⟩ := x
    simp only [List.map_cons, List.nodup_cons, List.mem_map] at hnd
    by_cases e : k = h
    · subst e
      have : xs.filter (·.1 == k) = [] :=
        List.filter_eq_nil_iff.2 fun y hy => by simpa using fun e => hnd.1 ⟨y, hy, e⟩
      simp [List.filter_cons, List.lookup_cons, this]
    · have hk : (h == k) = false := by simpa using Ne.symm e
      simp [List.filter_cons, List.lookup_cons, e, hk, ih hnd.2]

theorem hostRow_toList (o : Option Bytes) : hostRow o.toList = .ok o := by
  cases o <;> rfl

/-- On an open pool and a well-formed table, `query` reads the table as a map. -/
theorem query_eq_lookup {uri : Bytes} {db : RegDb} (hdb : db.HostsOk) (h : Bytes) :
    query uri false db h = .ok (db.hosts.lookup h) := by
  simp [query, RegDb.selectHost, hdb.1, filter_host_eq_lookup hdb.2, hostRow_toList, bind,
    Except.bind]

/-- On an open pool and a well-formed table, `announce` binds an unbound name and raises
`ErrHostDup` for a bound one. -/
theorem announce_eq_lookup {uri : Bytes} {db : RegDb} (hdb : db.HostsOk) (h a : Bytes) :
    announce uri false db h a = match db.hosts.lookup h with
      | none => .ok { db with hosts := db.hosts ++ [(h, a)] }
      | some _ => .error (.registryError (.net .hostDup) uri (ascii "announce") [h, a]) := by
  cases hl : db.hosts.lookup h with
  | some b =>
    obtain ⟨l1, l2, e, -⟩ := List.lookup_eq_some_iff.1 hl
    exact announce_dup hdb (List.mem_map.2 ⟨(h, b), by simp [e], rfl⟩)
  | none =>
    have hany : db.hosts.any (·.1 == h) = false := List.any_eq_false.2 fun p hp e => by
      simpa [bne, beq_iff_eq, (beq_iff_eq.1 e).symm] using List.lookup_eq_none_iff.1 hl p hp
    simp [announce, RegDb.insertHost, hdb.1, hany, Except.mapError]

/-- **The hosts table is a map, the first `announce` of a name winning.** From a well-formed
hosts table, after any sequence of `announce` calls on an open pool, the table is still well
formed and `query` answers, for every name, what the map built by those calls binds: the first
address announced for it, or what the table held before. -/
theorem announce_query_refines {uri : Bytes} {db : RegDb} (hdb : db.HostsOk)
    (reqs : List (Bytes × Bytes)) :
    (announceAll uri db reqs).HostsOk ∧
      ∀ h, query uri false (announceAll uri db reqs) h =
        .ok (bindAll (fun h => db.hosts.lookup h) reqs h) := by
  induction reqs generalizing db with
  | nil => exact ⟨hdb, query_eq_lookup hdb⟩
  | cons r reqs ih =>
    obtain ⟨h, a⟩ := r
    simp only [announceAll, bindAll, announce_eq_lookup hdb]
    cases hl : db.hosts.lookup h with
    | none =>
      have hdb' : RegDb.HostsOk { db with hosts := db.hosts ++ [(h, a)] } :=
        @announce_hostsOk uri h a false db _ ((announce_eq_lookup hdb h a).trans (by rw [hl])) hdb
      have hm : (fun h' => ({ db with hosts := db.hosts ++ [(h, a)] } : RegDb).hosts.lookup h') =
          fun h' => (db.hosts.lookup h').or (if h' = h then some a else none) := by
        funext h'
        by_cases e : h' = h
        · subst e; simp [List.lookup_append, List.lookup_cons]
        · have hk : (h' == h) = false := by simpa using e
          simp [List.lookup_append, List.lookup_cons, e, hk]
      exact hm ▸ ih hdb'
    | some b =>
      have hm : (fun h' => (db.hosts.lookup h').or (if h' = h then some a else none)) =
          fun h' => db.hosts.lookup h' := by
        funext h'
        by_cases e : h' = h
        · subst e; simp [hl]
        · simp [e]
      exact hm ▸ ih hdb

/-- Announcing `a`, `b`, then `a` again on a fresh table: the second `a` raises, and `a`
keeps its first address. -/
theorem announce_query_refines_twice :
    query (ascii "r.db") false (announceAll (ascii "r.db") ⟨true, true, [], []⟩
        [(ascii "a", ascii "1"), (ascii "b", ascii "2"), (ascii "a", ascii "3")]) (ascii "a") =
      .ok (some (ascii "1")) :=
  ((@announce_query_refines (ascii "r.db") ⟨true, true, [], []⟩ ⟨rfl, List.nodup_nil⟩ _).2 _).trans rfl

/-! ## Opening: `_setup` statement by statement -/

/-- `SQLiteRegistry.schema_ver`. -/
def schemaVer : Bytes := ascii "lonet.1"

/-- `_config(conn, name)`: the stored value, `""` when there is none. -/
def config (db : RegDb) (name : Bytes) : Except Exc Bytes :=
  context (ascii "config: get " ++ qq name) <|
    match db.selectMeta name with
    | .error e => .error e
    | .ok [] => .ok []
    | .ok [v] => .ok v
    | .ok _ => .error (.error (ascii "registry broken: duplicate config entries"))

/-- `_set_config(conn, name, value)`. -/
def setConfig (db : RegDb) (name value : Bytes) : Except Exc RegDb :=
  context (ascii "config: set " ++ qq name ++ ascii " = " ++ qq value) (db.replaceMeta name value)

/-- Which statement of `_setup` an opener runs next. -/
inductive OpenPc where
  | createHosts | createMeta | getVer | setVer | getNet | setNet
  deriving DecidableEq, Repr

/-- One `SQLiteRegistry(dburi, network)` call: running `_setup`, or returned (`none`) or
raised. -/
inductive Opener where
  | run (network : Bytes) (pc : OpenPc)
  | done (network : Bytes) (err : Option Exc)
  deriving DecidableEq, Repr

/-- What the caller of `SQLiteRegistry(uri, network)` sees of error `e` raised in `_setup`:
the `setup` context, then `_regerr` of `__init__`. -/
def setupError (uri network : Bytes) (e : Exc) : Exc :=
  regerrExc uri (ascii "__init__") [uri, network] (.wrap (ascii "setup " ++ qq network) e true)

/-- The schema check, on the version `ver` read: the mismatch message names
`r._schema_ver`, an attribute `SQLiteRegistry` does not have. -/
def checkVer (uri network ver : Bytes) : Opener :=
  if ver = schemaVer then .run network .getNet
  else .done network (some (setupError uri network
    (.attributeError (ascii "SQLiteRegistry") (ascii "_schema_ver"))))

/-- The network check, on the nonempty name `dbnetwork` read. -/
def checkNet (uri network dbnetwork : Bytes) : Opener :=
  if dbnetwork = network then .done network none
  else .done network (some (setupError uri network (.error (ascii "network name mismatch: want "
    ++ qq network ++ ascii "; have " ++ qq dbnetwork))))

/-- One SQL statement of an opener, with what `_setup` computes up to the next one; `none`
once the opener has returned. -/
def Opener.step (uri : Bytes) : Opener → RegDb → Option (Opener × RegDb)
  | .done .., _ => none
  | .run net .createHosts, db => some (.run net .createMeta, { db with hostsTable := true })
  | .run net .createMeta, db => some (.run net .getVer, { db with metaTable := true })
  | .run net .getVer, db => some <| match config db (ascii "schemaver") with
    | .error e => (.done net (some (setupError uri net e)), db)
    | .ok ver => (if ver = [] then .run net .setVer else checkVer uri net ver, db)
  | .run net .setVer, db => some <| match setConfig db (ascii "schemaver") schemaVer with
    | .error e => (.done net (some (setupError uri net e)), db)
    | .ok db' => (.run net .getNet, db')
  | .run net .getNet, db => some <| match config db (ascii "network") with
    | .error e => (.done net (some (setupError uri net e)), db)
    | .ok v => (if v = [] then .run net .setNet else checkNet uri net v, db)
  | .run net .setNet, db => some <| match setConfig db (ascii "network") net with
    | .error e => (.done net (some (setupError uri net e)), db)
    | .ok db' => (.done net none, db')

/-- Openers of one file, each at its own statement. -/
abbrev OpenSys := List Opener × RegDb

/-- Opener `i` runs its next statement. -/
def openStep (uri : Bytes) (s : OpenSys) (i : Nat) : Option OpenSys := do
  let o ← s.1[i]?
  let (o', db) ← o.step uri s.2
  pure (s.1.set i o', db)

/-- The openers run in the order `sched` gives, each entry one statement. -/
def openRun (uri : Bytes) : List Nat → OpenSys → Option OpenSys
  | [], s => some s
  | i :: sched, s => openStep uri s i >>= openRun uri sched

/-- Openers of the networks `names`, none started, on a fresh file. -/
def openInit (names : List Bytes) : OpenSys := (names.map (.run · .createHosts), RegDb.empty)

/-- Two openers of a fresh file, `lonetA` and `lonetB`: both read `schemaver` after it is
set, both read an empty `network`, then each writes its own. Both constructions succeed, and
the file names the network of the second. -/
theorem openers_race :
    openRun (ascii "r.db") [0, 0, 0, 0, 1, 1, 1, 0, 1, 0, 1]
        (openInit [ascii "lonetA", ascii "lonetB"]) =
      some ([.done (ascii "lonetA") none, .done (ascii "lonetB") none],
        ⟨true, true, [], [(ascii "schemaver", schemaVer), (ascii "network", ascii "lonetB")]⟩) := by
  decide

end Lonet
