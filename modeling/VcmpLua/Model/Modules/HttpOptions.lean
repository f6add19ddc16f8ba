import VcmpLua.Model.Modules.HttpRequest

/-! # What a script asks `http.request` for

`modules/http.cpp`: `ReadRequest`, which checks the options table of a request or its URL, and the
options of an easy handle that `Http::Start` sets from the request; those that are the same for every
request are left out. All fields are read raw. What `luaL_tolstring` makes of a key is a parameter: it
can call a metamethod, which can raise an error of its own.
-/

namespace VcmpLua.Model.Modules

open VcmpLua.Model.Core VcmpLua.Model.Lua VcmpLua.Model.Bindings

/-- `Http::Request`. -/
structure Request where
  url : Text := []
  /-- Upper case. -/
  method : Text := []
  headers : List Text := []
  body : Text := []
  hasBody : Bool := false
  timeoutMs : ℕ := 30000
  /-- With 0, redirects are not followed. -/
  maxRedirects : ℕ := 5
deriving DecidableEq, Repr

inductive Refusal where
  | argument (error : ArgError)
  /-- The error of a metamethod. -/
  | raised (message : String)
deriving DecidableEq, Repr

def refuse {α : Type} (message : String) : Except Refusal α := .error (.argument ⟨1, message⟩)

def kFields : List Text := ["url", "method", "headers", "body", "timeout", "redirects"].map String.toList

/-- In seconds. -/
def kMaxTimeout : ℕ := 3600

/-- `FieldError`. -/
def fieldError {α : Type} (field expected : String) (value : Value) : Except Refusal α :=
  refuse s!"field '{field}' must be {expected} (got {typeName value})"

/-! ## Texts -/

/-- What comes before the first occurrence of `mark`. -/
def before (mark : Text) : Text → Option Text
  | [] => if mark.isEmpty then some [] else none
  | char :: rest =>
    if mark.isPrefixOf (char :: rest) then some [] else (before mark rest).map (char :: ·)

def checkUrl (url : Text) : Except Refusal Unit :=
  match before "://".toList url with
  | some scheme =>
    if scheme.map Char.toLower ∈ ["http", "https"].map String.toList then .ok ()
    else refuse "the URL must start with http:// or https://"
  | none => refuse "the URL must start with http:// or https://"

/-- The loop over the keys of the options, in the order of `lua_next`. -/
def checkFields (tolstring : Value → Except String Text) : List Entry → Except Refusal Unit
  | [] => .ok ()
  | entry :: rest =>
    if entry.1 ∈ kFields.map Value.string then checkFields tolstring rest
    else
      match tolstring entry.1 with
      | .ok name => refuse s!"unknown field '{String.ofList name.cString}'"
      | .error message => .error (.raised message)

/-! ## Numbers -/

/-- A float keeps the 53 highest bits of a product. -/
def roundDouble (product : ℕ) : ℕ :=
  let shift := product.log2 - 52
  Sql.roundHalfEven product (2 ^ shift) * 2 ^ shift

/-- `static_cast<std::int64_t>(seconds * 1000)`, at least 1. -/
def milliseconds (num den : ℕ) : ℕ := max 1 (roundDouble (num * 1000) / den)

/-! ## Fields -/

def readUrl (value : Value) : Except Refusal Text :=
  match value with
  | .string url => do
    checkUrl url
    return url
  | value => fieldError "url" "a string" value

/-- None without a body. -/
def readBody (value : Value) : Except Refusal (Option Text) :=
  match value with
  | .nil => .ok none
  | .string body => .ok (some body)
  | value => fieldError "body" "a string" value

/-- In upper case; the letters are checked after that. -/
def checkMethod (text : Text) (hasBody : Bool) : Except Refusal Text :=
  let method := text.map Char.toUpper
  if method.isEmpty ∨ method.length > 16 ∨ !method.all (fun char => 'A' ≤ char ∧ char ≤ 'Z') then
    refuse s!"invalid method '{String.ofList method}'"
  else if hasBody ∧ (method = "GET".toList ∨ method = "HEAD".toList) then
    refuse s!"a {String.ofList method} request has no body"
  else .ok method

def readMethod (value : Value) (hasBody : Bool) : Except Refusal Text :=
  match value with
  | .nil => checkMethod (if hasBody then "POST".toList else "GET".toList) hasBody
  | .string text => checkMethod text hasBody
  | value => fieldError "method" "a string" value

def readHeaderTable (heap : Heap) (value : Value) : Except Refusal (List Text) :=
  match value with
  | .nil => .ok []
  | .table id =>
    match readHeaders (heap id).entries with
    | .ok headers => .ok headers
    | .error error => .error (.argument error)
  | value => fieldError "headers" "a table" value

def readTimeout (value : Value) : Except Refusal ℕ :=
  match value with
  | .nil => .ok ({} : Request).timeoutMs
  | .number number =>
    match number.ratio? with
    | some (negative, num, den) =>
      if negative ∨ num = 0 ∨ num > kMaxTimeout * den then
        refuse s!"field 'timeout' must be between 0 and {kMaxTimeout} seconds"
      else .ok (milliseconds num den)
    | none => refuse s!"field 'timeout' must be between 0 and {kMaxTimeout} seconds"
  | value => fieldError "timeout" "a number of seconds" value

/-- Negative zero is not less than zero. -/
def readRedirects (value : Value) : Except Refusal ℕ :=
  match value with
  | .nil => .ok ({} : Request).maxRedirects
  | .number number =>
    match number.ratio? with
    | some (negative, num, den) =>
      if negative ∧ num ≠ 0 ∨ num > 20 * den ∨ num % den ≠ 0 then
        refuse "field 'redirects' must be an integer between 0 and 20"
      else .ok (num / den)
    | none => refuse "field 'redirects' must be an integer between 0 and 20"
  | value => fieldError "redirects" "an integer" value

/-- `ReadRequest`, for the first argument, if there is one. -/
def readRequest (heap : Heap) (tolstring : Value → Except String Text) (argument : Option Value) :
    Except Refusal Request :=
  match argument with
  | some (.string url) => do
    checkUrl url
    return { url, method := "GET".toList }
  | some (.table id) => do
    let options := heap id
    checkFields tolstring options.entries
    let url ← readUrl (rawField options "url")
    let body ← readBody (rawField options "body")
    let method ← readMethod (rawField options "method") body.isSome
    let headers ← readHeaderTable heap (rawField options "headers")
    let timeoutMs ← readTimeout (rawField options "timeout")
    let maxRedirects ← readRedirects (rawField options "redirects")
    return { url, method, headers, body := body.getD [], hasBody := body.isSome, timeoutMs, maxRedirects }
  | some value => .error (.argument (typeError 1 "table or URL" value))
  | none => refuse "table or URL expected, got no value"

/-! ## `Http::Start` -/

/-- A call of `curl_easy_setopt`, by its option. A text is what the pointer that is passed leads to; a
list of headers is that of `curl_slist_append`. -/
inductive EasyOption where
  | url (text : Text)
  | followLocation (on : Bool)
  | maxRedirs (count : ℕ)
  | timeoutMs (time : ℕ)
  | connectTimeoutMs (time : ℕ)
  | httpHeader (list : List Text)
  | noBody
  | customRequest (text : Text)
  | postFieldSize (size : ℕ)
  | copyPostFields (memory : Text)
deriving DecidableEq, Repr

def headerOptions (request : Request) : List EasyOption :=
  if request.headers.isEmpty then [] else [.httpHeader (headerList request.headers)]

def methodOptions (request : Request) : List EasyOption :=
  if request.method = "HEAD".toList then [.noBody]
  else if request.method ≠ "GET".toList ∧ request.method ≠ "POST".toList then [.customRequest request.method]
  else []

def bodyOptions (request : Request) : List EasyOption :=
  if request.hasBody then [.postFieldSize request.body.length, .copyPostFields request.body]
  else if request.method = "POST".toList then [.postFieldSize 0, .copyPostFields []]
  else []

/-- The options that depend on the request, in the order of the calls. -/
def easyOptions (request : Request) : List EasyOption :=
  [.url request.url, .followLocation (decide (request.maxRedirects > 0)), .maxRedirs request.maxRedirects,
      .timeoutMs request.timeoutMs, .connectTimeoutMs (min 10000 request.timeoutMs)] ++
    headerOptions request ++ methodOptions request ++ bodyOptions request

end VcmpLua.Model.Modules
