import CrmEmulator.Text.Basic
import CrmEmulator.Text.LetterCase

/-!
# CrmEmulator.Http.Address — the targets of requests

A target is a path with an optional query, a whole address, an authority alone, or a star.  What
follows a number sign is left out.
-/

namespace CrmEmulator.Http

/-- The path and the query of a target, both in their encoding. -/
structure Address where
  path : List Char
  query : List Char
deriving Repr, DecidableEq

namespace Address

/-- The greatest length of a target, in bytes. -/
def maxLength : Nat := 65534

/-- May a character stand in a path?  Characters beyond ASCII may. -/
def isPathChar (c : Char) : Bool :=
  0x21 ≤ c.toNat && !(['#', '<', '>', '?', '\x60'].contains c)

/-- May a character stand in a query? -/
def isQueryChar (c : Char) : Bool :=
  0x21 ≤ c.toNat && !(['"', '#', '<', '>'].contains c)

/-- The text before a number sign. -/
def withoutFragment (cs : List Char) : List Char := cs.takeWhile (· ≠ '#')

/-- A path with an optional query. -/
def ofPath? (cs : List Char) : Option Address :=
  let (path, query) := (cutAt? '?' (withoutFragment cs)).getD (withoutFragment cs, [])
  if path.all isPathChar && query.all isQueryChar then some ⟨path, query⟩ else none

/-! ## Whole addresses -/

/-- May a character stand in an authority? -/
def isAuthorityChar (c : Char) : Bool :=
  c.isAlphanum || "!$%&'()*+,-.:;=@[]_~".toList.contains c

/-- What has been seen of an authority: colons and percent signs of its last part, and brackets. -/
structure AuthorityState where
  colons : Nat
  opened : Bool
  closed : Bool
  percent : Bool
deriving Repr, DecidableEq

/-- One character of an authority; none if it cannot stand there. -/
def authorityStep? (s : AuthorityState) (c : Char) : Option AuthorityState :=
  if c = ':' then if s.colons < 8 then some { s with colons := s.colons + 1 } else none
  else if c = '[' then if s.percent || s.opened then none else some { s with opened := true }
  else if c = ']' then
    if !s.opened || s.closed then none
    else some { s with closed := true, colons := 0, percent := false }
  else if c = '@' then some { s with colons := 0, percent := false }
  else if c = '%' then some { s with percent := true }
  else if isAuthorityChar c then some s
  else none

/-- Is this a user and a host with an optional port?  There is at most one colon outside brackets,
and something after an at sign. -/
def isAuthority (cs : List Char) : Bool :=
  match cs.foldlM authorityStep? ⟨0, false, false, false⟩ with
  | some s => s.opened == s.closed && s.colons ≤ 1 && cs.getLast? != some '@' && !s.percent
  | none => false

/-- May a character stand in a scheme? -/
def isSchemeChar (c : Char) : Bool := c.isAlphanum || c == '+' || c == '-' || c == '.'

/-- The text after a scheme with its colon and two slashes. -/
def afterScheme? (cs : List Char) : Option (List Char) :=
  afterBeginning? "://".toList (cs.dropWhile isSchemeChar)

/-- A whole address: scheme, authority and path, where no path means the root. -/
def ofWhole? (cs : List Char) : Option Address :=
  let isEnd (c : Char) : Bool := c == '/' || c == '?' || c == '#'
  let authority := cs.takeWhile fun c => !isEnd c
  if authority.isEmpty || !isAuthority authority then none
  else (ofPath? (cs.dropWhile fun c => !isEnd c)).map fun a =>
    if a.path.isEmpty then { a with path := ['/'] } else a

/-- The address of a target. -/
def parse? (cs : List Char) : Option Address :=
  if maxLength < (String.ofList cs).utf8ByteSize then none
  else match cs with
    | [] => none
    | ['*'] => some ⟨['*'], []⟩
    | '/' :: _ => ofPath? cs
    | _ =>
      match afterScheme? cs with
      | some rest => ofWhole? rest
      | none => if isAuthority cs then some ⟨[], []⟩ else none

end Address

end CrmEmulator.Http
