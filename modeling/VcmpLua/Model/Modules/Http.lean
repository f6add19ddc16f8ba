import Mathlib
import VcmpLua.Model.Core.Invoker

/-! # HTTP requests

`modules/http.cpp`: transfers in a map by id, the multi handle of libcurl, and the list of finished
transfers that `Pump` calls back. Each transfer owns one easy handle, so a handle is named by the id
of its transfer, and the pointer that `CURLINFO_PRIVATE` returns leads to the transfer in the map.
What libcurl answers is given from outside: which call of `Start` fails, and which handles are done
at a `Pump`. The options that `Start` sets and the events of the network are not modelled.
-/

namespace VcmpLua.Model.Modules

open Effect VcmpLua.Model.Core

/-- How libcurl ended a transfer, with what it received. -/
structure Outcome where
  /-- `curl_easy_strerror` of the result, none for `CURLE_OK`. -/
  failure : Option String := none
  /-- The error buffer. -/
  error : String := ""
  tooLarge : Bool := false
  status : ℤ := 0
  url : Option String := none
  body : String := ""
  headers : List (String × String) := []
deriving DecidableEq, Repr

structure Transfer where
  id : ℕ
  callback : Fn
  /-- The easy handle is in the multi handle. -/
  multi : Bool := false
  outcome : Outcome := {}
deriving DecidableEq, Repr

/-- The two arguments of a callback, one of which is nil. -/
inductive Answer where
  | response (status : ℤ) (url body : String) (headers : List (String × String))
  | failure (error : String)
deriving DecidableEq, Repr

/-- What a call of `Start` can fail at. -/
inductive Fault where
  | easyInit
  | option (error : String)
  | header
  | addHandle (error : String)
  /-- The map cannot grow; the destructor of the transfer takes its handle out again. -/
  | emplace
deriving DecidableEq, Repr

structure Http where
  transfers : List Transfer := []
  nextId : ℕ := 1
  /-- The easy handles in the multi handle. -/
  multi : List ℕ := []
deriving DecidableEq, Repr

/-- Header names in lower case; repeated headers joined with ", ". -/
def setHeader (table : List (String × String)) (header : String × String) : List (String × String) :=
  if table.any (·.1 = header.1) then
    table.map fun entry => if entry.1 = header.1 then (entry.1, entry.2 ++ ", " ++ header.2) else entry
  else table ++ [header]

namespace Http

def kMaxPending : ℕ := 1000

def kMaxBody : ℕ := 16 * 1024 * 1024

/-- What `Complete` pushes. -/
def answer (outcome : Outcome) : Answer :=
  match outcome.failure with
  | some text =>
    .failure (if outcome.tooLarge then s!"the response body is larger than {kMaxBody} bytes"
      else if outcome.error ≠ "" then outcome.error else text)
  | none => .response outcome.status (outcome.url.getD "") outcome.body (outcome.headers.foldl setHeader [])

def ids (http : Http) : List ℕ := http.transfers.map (·.id)

def find? (http : Http) (id : ℕ) : Option Transfer := http.transfers.find? (·.id = id)

def pending (http : Http) : ℕ := http.transfers.length

def addHandle (id : ℕ) (http : Http) : Http := { http with multi := id :: http.multi }

def removeHandle (id : ℕ) (http : Http) : Http := { http with multi := http.multi.erase id }

/-- `transfers_.erase`. -/
def erase (id : ℕ) (http : Http) : Http := { http with transfers := http.transfers.filter (·.id ≠ id) }

/-- `Http::Clear`: every destructor takes its handle out of the multi handle. -/
def clear (http : Http) : Http :=
  let handles := (http.transfers.filter (·.multi)).map (·.id)
  { http with transfers := [], multi := http.multi.filter (· ∉ handles) }

end Http

/-- A state that holds the transfers and the invoker that they call through. -/
class HasHttp (σ : Type) extends HasInvoker σ where
  http : σ → Http
  setHttp : Http → σ → σ

namespace Http

variable {σ : Type} [HasHttp σ]

open HasHttp

def update (f : Http → Http) (s : σ) : σ := setHttp (f (http s)) s

/-- `Http::Start`; returns the id of the transfer. -/
def start (callback : Fn) (fault : Option Fault) : EStateM Exn σ ℕ := do
  if (http (← get)).pending ≥ kMaxPending then
    throw (.thrown s!"http.request: {kMaxPending} requests are pending already")
  let id := (http (← get)).nextId
  modify (update fun http => { http with nextId := http.nextId + 1 })
  match fault with
  | some .easyInit => throw (.thrown "http.request: cannot create a libcurl handle")
  | some (.option error) => throw (.thrown s!"http.request: curl refused option: {error}")
  | some .header => throw (.thrown "std::bad_alloc")
  | some (.addHandle error) => throw (.thrown s!"http.request: cannot start the request: {error}")
  | some .emplace =>
    modify (update (addHandle id))
    modify (update (removeHandle id))
    throw (.thrown "std::bad_alloc")
  | none =>
    modify (update (addHandle id))
    modify (update fun http => { http with transfers := http.transfers ++ [{ id, callback, multi := true }] })
    return id

/-- The loop over `curl_multi_info_read`: libcurl reports a handle once, and only while the multi
handle has it. -/
def collect : List (ℕ × Outcome) → EStateM Exn σ (List Transfer)
  | [] => return []
  | (handle, outcome) :: rest => do
      if handle ∈ (http (← get)).multi then
        match (http (← get)).find? handle with
        | none => throw .undefined
        | some transfer =>
          modify (update (removeHandle handle))
          modify (update (erase transfer.id))
          let done ← collect rest
          return { transfer with multi := false, outcome } :: done
      else collect rest

/-- `Http::Complete`: `call` is what the callback of the transfer does. -/
def complete (call : Transfer → Answer → EStateM Exn σ Ending) (transfer : Transfer) : EStateM Exn σ Unit := do
  let _ ← Invoker.call (pure (answer transfer.outcome)) (call transfer)

/-- `Http::Pump`, when libcurl reports these transfers. All callbacks are one call into Lua. -/
def pump (reports : List (ℕ × Outcome)) (call : Transfer → Answer → EStateM Exn σ Ending) : EStateM Exn σ Unit := do
  if (http (← get)).transfers.isEmpty then
    return
  let done ← collect reports
  if done.isEmpty then
    return
  Invoker.scope (forEach (complete call) done)

end Http

end VcmpLua.Model.Modules
