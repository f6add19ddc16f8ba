import Mathlib
import VcmpLua.Model.Core.Text
import VcmpLua.Model.Modules.Http

/-! # The header lines of a response

`modules/http.cpp`: the callback that libcurl calls with each header line of a response. The list
that it fills is `Outcome.headers`, which `Http.answer` makes the table of.
-/

namespace VcmpLua.Model.Modules

open VcmpLua.Model.Core

/-- `Transfer::Header`. A new status line (a redirect, or 100 Continue) starts the headers over. -/
def Transfer.header (responseHeaders : List (String × String)) (data : Text) : List (String × String) :=
  let line : Text := data.rdropWhile fun char => char = '\r' ∨ char = '\n'
  if "HTTP/".toList <+: line then []
  else
    match line.find ':' 0 with
    -- the blank line at the end, or a malformed line
    | none | some 0 => responseHeaders
    | some colon =>
      let name := (line.substr 0 colon).map Char.toLower
      let value := line.drop (colon + 1)
      let value := value.dropWhile fun char => char = ' ' ∨ char = '\t'
      let value := value.rdropWhile fun char => char = ' ' ∨ char = '\t'
      responseHeaders ++ [(String.ofList name, String.ofList value)]

end VcmpLua.Model.Modules
