import Lonet.Bytes

/-!
# Exceptions and `xerr`

The exception objects lonet raises, and the three functions of `xerr/__init__.py` that
decide how they are reported: `cause` (`xerr.cause`), `wellDefined` (`xerr.well_defined`)
and `pyStr` (`str`, with `Error.__str__` for the context chain).

`xerr.Error(err, cause_exc, cause_tb)` has two constructors here: `error err` (no cause,
as in `Error(arg)`) and `wrap err cause tb`, where `tb` says whether a traceback object was
attached. The frame lines a traceback prints depend on the Python call stack and are not
modelled; `tracebackSection` is the header `Error.__str__` writes in front of them.
-/

namespace Lonet

/-- The `net.error` objects `neterror` creates and registers as well-defined
(`xnet/lonet/__init__.py:80-88`); they are compared by identity (`is`). -/
inductive NetErr where
  | netDown | hostDown | sockDown | addrAlreadyUsed | addrNoListen | connRefused
  | noHost | hostDup
  deriving DecidableEq, Repr

namespace NetErr

/-- The `errno` argument, for the six errors created with one (Linux values). -/
def errno? : NetErr → Option Nat
  | netDown | hostDown | sockDown => some 77
  | addrAlreadyUsed => some 98
  | addrNoListen => some 99
  | connRefused => some 111
  | noHost | hostDup => none

/-- The message argument. -/
def msg : NetErr → Bytes
  | netDown => ascii "network is down"
  | hostDown => ascii "host is down"
  | sockDown => ascii "socket is down"
  | addrAlreadyUsed => ascii "address already in use"
  | addrNoListen => ascii "cannot listen on requested address"
  | connRefused => ascii "connection refused"
  | noHost => ascii "no such host"
  | hostDup => ascii "host already registered"

end NetErr

/-- A Python exception object as lonet can raise or receive it. -/
inductive Exc where
  /-- One of the registered `neterror` objects. -/
  | net (e : NetErr)
  /-- `net.gaierror(msg)`. -/
  | gaierror (msg : Bytes)
  /-- `socket.error(errno, strerror)` raised by the operating system. -/
  | osError (errno : Nat) (msg : Bytes)
  | valueError (msg : Bytes)
  /-- lonet's `protocolError(msg)`. -/
  | protocolError (msg : Bytes)
  /-- `xerr.Error(err)`. -/
  | error (err : Bytes)
  /-- `xerr.Error(err, cause_exc, cause_tb)`; `tb` is whether `cause_tb` is set. -/
  | wrap (err : Bytes) (cause : Exc) (tb : Bool)
  /-- `RegistryError(err, registry, op, *argv)`. -/
  | registryError (err : Exc) (uri : Bytes) (op : Bytes) (argv : List Bytes)
  | runtimeError (msg : Bytes)
  /-- `AttributeError`: object of class `cls` has no attribute `attr`. -/
  | attributeError (cls attr : Bytes)
  | typeError (msg : Bytes)
  | indexError (msg : Bytes)
  /-- `UnboundLocalError`: local variable `name` read before it was assigned. -/
  | unboundLocal (name : Bytes)
  /-- An `sqlite3` error with its message. -/
  | sqliteError (msg : Bytes)
  deriving DecidableEq, Repr

/-- `xerr.well_defined`: instances of the registered classes `Error` and `protocolError`, and
the registered `neterror` objects. -/
def wellDefined : Exc → Bool
  | .net _ | .protocolError _ | .error _ | .wrap .. => true
  | _ => false

/-- `xerr.cause`: the deepest cause along `Error`s. -/
def cause : Exc → Exc
  | .wrap _ c _ => cause c
  | e => e

/-- `with errctx(msg): ...` turns an escaping exception into `Error(msg, exc, tb)`. -/
def context (msg : Bytes) {α : Type} (x : Except Exc α) : Except Exc α :=
  x.tryCatch fun e => .error (.wrap msg e true)

/-! ## `str` -/

/-- Python 2 `repr` of a byte string (`'` quotes unless the text has `'` and no `"`). -/
def reprBytes (s : Bytes) : Bytes :=
  let q : UInt8 := if s.contains 39 && !s.contains bQuote then bQuote else 39
  q :: s.flatMap (escapeByte q) ++ [q]

/-- `str` of a tuple of byte strings. -/
def reprTuple (xs : List Bytes) : Bytes :=
  ascii "(" ++ (ascii ", ").intercalate (xs.map reprBytes) ++
    (if xs.length = 1 then ascii "," else []) ++ ascii ")"

/-- What `Error.__str__` appends for a cause that is not well-defined (frames elided). -/
def tracebackSection : Bytes := ascii "\n\ncause traceback:\n"

/-- `str(e)`. For an `Error` chain this is `Error.__str__`: the messages joined by `": "`,
then the deepest non-`Error` cause, then a traceback section when the innermost `Error`
has a traceback and that cause is not well-defined. -/
def pyStr : Exc → Bytes
  | .net e => match e.errno? with
    | some n => ascii "[Errno " ++ decimal n ++ ascii "] " ++ e.msg
    | none => e.msg
  | .gaierror m => m
  | .osError n m => ascii "[Errno " ++ decimal n ++ ascii "] " ++ m
  | .valueError m => m
  | .protocolError m => ascii "protocol error: " ++ m
  | .error err => err
  | .wrap err (.error e) _ => err ++ ascii ": " ++ e
  | .wrap err (.wrap e c t) _ => err ++ ascii ": " ++ pyStr (.wrap e c t)
  | .wrap err leaf tb => err ++ ascii ": " ++ pyStr leaf ++
      (if tb && !wellDefined leaf then tracebackSection else [])
  | .registryError err uri op argv =>
      uri ++ ascii ": " ++ op ++ ascii " " ++ reprTuple argv ++ ascii ": " ++ pyStr err
  | .runtimeError m => m
  | .attributeError cls attr =>
      ascii "'" ++ cls ++ ascii "' object has no attribute '" ++ attr ++ ascii "'"
  | .typeError m => m
  | .indexError m => m
  | .unboundLocal name =>
      ascii "local variable '" ++ name ++ ascii "' referenced before assignment"
  | .sqliteError m => m

/-- Whether `str(e)` carries a cause-traceback section, at any depth (a `RegistryError`
prints its inner error). -/
def showsTraceback : Exc → Bool
  | .wrap _ (.error _) _ => false
  | .wrap _ (.wrap e c t) _ => showsTraceback (.wrap e c t)
  | .wrap _ leaf tb => (tb && !wellDefined leaf) || showsTraceback leaf
  | .registryError err .. => showsTraceback err
  | _ => false

/-! ## Reading `Except` computations backwards -/

section ExceptLemmas

variable {ε α β : Type} {x : Except ε α} {f : α → Except ε β} {b : β}

end ExceptLemmas

@[simp] theorem cause_wrap (m : Bytes) (c : Exc) (tb : Bool) : cause (.wrap m c tb) = cause c := rfl

/-! ## Chains of contexts -/

/-- An instance of `xerr.Error`. -/
def Exc.isError : Exc → Bool
  | .error _ | .wrap .. => true
  | _ => false

/-- `Error(m1, Error(m2, ... Error(mk, leaf, tbk) ..., tb2), tb1)` for `ms = [(m1, tb1), ...]`,
outermost first. -/
def chain : List (Bytes × Bool) → Exc → Exc
  | [], leaf => leaf
  | (m, tb) :: ms, leaf => .wrap m (chain ms leaf) tb

theorem cause_chain (ms : List (Bytes × Bool)) {leaf : Exc} (hl : leaf.isError = false) :
    cause (chain ms leaf) = leaf := by
  induction ms with
  | nil => cases leaf <;> first | rfl | cases hl
  | cons p ms ih => exact ih

/-- `Error.__str__` one level above a cause that is not an `Error`. -/
theorem pyStr_wrap_leaf (m : Bytes) {leaf : Exc} (tb : Bool) (hl : leaf.isError = false) :
    pyStr (.wrap m leaf tb) =
      m ++ ascii ": " ++ pyStr leaf ++ (if tb && !wellDefined leaf then tracebackSection else []) := by
  cases leaf <;> first | rfl | cases hl

theorem pyStr_chain (m : Bytes) (tb : Bool) (ms : List (Bytes × Bool)) {leaf : Exc}
    (hl : leaf.isError = false) :
    pyStr (chain ((m, tb) :: ms) leaf) =
      (ascii ": ").intercalate (m :: ms.map (·.1) ++ [pyStr leaf]) ++
        (if (((m, tb) :: ms).getLast (List.cons_ne_nil _ _)).2 && !wellDefined leaf
          then tracebackSection else []) := by
  induction ms generalizing m tb with
  | nil => simp [chain, pyStr_wrap_leaf m tb hl, List.intercalate]
  | cons p ms ih =>
    obtain ⟨m', tb'⟩ := p
    have e : pyStr (chain ((m, tb) :: (m', tb') :: ms) leaf) =
        m ++ ascii ": " ++ pyStr (chain ((m', tb') :: ms) leaf) := rfl
    rw [e, ih, List.getLast_cons_cons]
    simp [List.intercalate]

/-- **Error-chain formatting.** For `k ≥ 1` messages `ms` (outermost first) around a leaf that
is not an `Error`, `xerr.cause` gives the leaf back, and `str` is the messages and `str(leaf)`
joined by `": "`, then the cause-traceback section exactly when the innermost `Error` has a
traceback and the leaf is not well-defined. -/
theorem error_chain_str (ms : List (Bytes × Bool)) (hk : ms ≠ []) (leaf : Exc)
    (hl : leaf.isError = false) :
    cause (chain ms leaf) = leaf ∧
      pyStr (chain ms leaf) = (ascii ": ").intercalate (ms.map (·.1) ++ [pyStr leaf]) ++
        (if (ms.getLast hk).2 && !wellDefined leaf then tracebackSection else []) := by
  obtain ⟨⟨m, tb⟩, ms, rfl⟩ := List.exists_cons_of_ne_nil hk
  exact ⟨cause_chain _ hl, pyStr_chain m tb ms hl⟩

/-- The refused dial of the tests (`lonet_test.py:75`): one context around `ErrConnRefused`,
well-defined, so no traceback section. -/
theorem error_chain_str_refused :
    pyStr (chain [(ascii "dial lonetX a:1->a:0", true)] (.net .connRefused)) =
      ascii "dial lonetX a:1->a:0: [Errno 111] connection refused" :=
  (error_chain_str [(ascii "dial lonetX a:1->a:0", true)] (List.cons_ne_nil _ _)
    (.net .connRefused) rfl).2

end Lonet
