import VcmpLua.Model.Modules.HttpOptions
import VcmpLua.Spec.Numbers

/-! # What is asked for, and what is sent

The arguments of a request as a relation: which request an options table asks for, with the value of
a number as a rational. And libcurl as far as `Http::Start` relies on it: what each option does to an
easy handle, and which request the handle makes.
-/

namespace VcmpLua.Spec

open VcmpLua.Model.Core VcmpLua.Model.Lua VcmpLua.Model.Bindings VcmpLua.Model.Modules

/-! ## Requests -/

/-- A header with its line: the name is a token and the value has no line break or NUL. -/
structure HeaderAsked (entry : Entry) (line name value : Text) : Prop where
  key : entry.1 = .string name
  view : view entry.2 = some value
  nonempty : name ≠ []
  token : ∀ char ∈ name, tokenChar char = true
  clean : ∀ char ∈ value, char ∉ ['\r', '\n', '\x00']
  line : line = headerLine name value

/-- In upper case; without one, a request with a body is a POST. -/
def MethodAsked (value : Value) (hasBody : Bool) (method : Text) : Prop :=
  (value = .nil ∧ method = if hasBody then "POST".toList else "GET".toList) ∨
    ∃ text, value = .string text ∧ method = text.map Char.toUpper

def HeadersAsked (heap : Heap) (value : Value) (lines : List Text) : Prop :=
  (value = .nil ∧ lines = []) ∨
    ∃ id, value = .table id ∧
      List.Forall₂ (fun entry line => ∃ name value, HeaderAsked entry line name value) (heap id).entries lines

/-- To less than a millisecond. -/
def TimeoutAsked (value : Value) (timeoutMs : ℕ) : Prop :=
  (value = .nil ∧ timeoutMs = 30000) ∨
    ∃ number seconds, value = .number number ∧ valueOf number = some seconds ∧ 0 < seconds ∧ seconds ≤ 3600 ∧
      |(timeoutMs : ℚ) - 1000 * seconds| < 1

def RedirectsAsked (value : Value) (maxRedirects : ℕ) : Prop :=
  (value = .nil ∧ maxRedirects = 5) ∨ ∃ number, value = .number number ∧ valueOf number = some (maxRedirects : ℚ)

structure OptionsAsked (heap : Heap) (options : Table) (request : Request) : Prop where
  known : ∀ entry ∈ options.entries, ∃ field ∈ kFields, entry.1 = .string field
  url : rawField options "url" = .string request.url
  body : rawField options "body" = if request.hasBody then .string request.body else .nil
  method : MethodAsked (rawField options "method") request.hasBody request.method
  headers : HeadersAsked heap (rawField options "headers") request.headers
  timeout : TimeoutAsked (rawField options "timeout") request.timeoutMs
  redirects : RedirectsAsked (rawField options "redirects") request.maxRedirects

inductive Asked (heap : Heap) : Option Value → Request → Prop
  | url (text : Text) : Asked heap (some (.string text)) { url := text, method := "GET".toList }
  | options (id : ℕ) (request : Request) (asked : OptionsAsked heap (heap id) request) :
      Asked heap (some (.table id)) request

/-- The scheme of the URL is `http` or `https`. -/
def HttpUrl (url : Text) : Prop :=
  ∃ scheme rest, url = scheme ++ "://".toList ++ rest ∧
    (scheme.map Char.toLower = "http".toList ∨ scheme.map Char.toLower = "https".toList)

structure WellFormed (request : Request) : Prop where
  url : HttpUrl request.url
  method : 1 ≤ request.method.length ∧ request.method.length ≤ 16 ∧ ∀ char ∈ request.method, 'A' ≤ char ∧ char ≤ 'Z'
  body : if request.hasBody then request.method ≠ "GET".toList ∧ request.method ≠ "HEAD".toList else request.body = []
  headers : ∀ line ∈ request.headers, '\r' ∉ line ∧ '\n' ∉ line ∧ '\x00' ∉ line
  timeout : 1 ≤ request.timeoutMs ∧ request.timeoutMs ≤ 3600000
  redirects : request.maxRedirects ≤ 20

/-! ## libcurl -/

/-- The request that libcurl makes by itself. -/
inductive Kind where
  | get | head | post
deriving DecidableEq, Repr

structure Easy where
  url : Text := []
  followLocation : Bool := false
  maxRedirs : ℕ := 30
  timeoutMs : ℕ := 0
  connectTimeoutMs : ℕ := 0
  httpHeader : List Text := []
  kind : Kind := .get
  /-- Replaces the word of the method only. -/
  customRequest : Option Text := none
  postFieldSize : Option ℕ := none
  postFields : Text := []
deriving DecidableEq, Repr

namespace Easy

def set (easy : Easy) : EasyOption → Easy
  | .url text => { easy with url := text.cString }
  | .followLocation on => { easy with followLocation := on }
  | .maxRedirs count => { easy with maxRedirs := count }
  | .timeoutMs time => { easy with timeoutMs := time }
  | .connectTimeoutMs time => { easy with connectTimeoutMs := time }
  | .httpHeader list => { easy with httpHeader := list }
  | .noBody => { easy with kind := .head }
  | .customRequest text => { easy with customRequest := some text.cString }
  | .postFieldSize size => { easy with postFieldSize := some size }
  | .copyPostFields memory =>
    let postFields := match easy.postFieldSize with
      | some size => memory.take size
      | none => memory.cString
    { easy with kind := .post, postFields }

/-- The method in the request line. -/
def method (easy : Easy) : Text :=
  easy.customRequest.getD (match easy.kind with
    | .get => "GET".toList
    | .head => "HEAD".toList
    | .post => "POST".toList)

def body? (easy : Easy) : Option Text := if easy.kind = .post then some easy.postFields else none

end Easy

/-- The handle that `Http::Start` adds to the multi handle. -/
def easyOf (request : Request) : Easy := (easyOptions request).foldl Easy.set {}

/-- A URL goes to libcurl as a C string. A POST without a body has an empty one. -/
structure Sends (easy : Easy) (request : Request) : Prop where
  url : easy.url = request.url.cString
  method : easy.method = request.method
  body : easy.body? = if request.hasBody then some request.body else if request.method = "POST".toList then some [] else none
  headers : easy.httpHeader = request.headers
  redirects : (if easy.followLocation then easy.maxRedirs else 0) = request.maxRedirects
  timeout : easy.timeoutMs = request.timeoutMs ∧ easy.connectTimeoutMs ≤ easy.timeoutMs

end VcmpLua.Spec
