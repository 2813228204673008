import TradeTape.Http.Host

/-
  Addresses of the web.

  An address has a scheme, after it mostly a host with a port
  and a user, and then a path, a query and a fragment.  It is
  read generously: blanks around it and line breaks in it are
  dropped, and in the schemes of the web backslashes count as
  slashes.  What cannot be made sense of is a host or a port
  that is none.

  Key definitions include:
    * `Http.Address`
    * `Http.Address.parse?`
    * `Http.Address.text`
-/

namespace TradeTape

namespace Http

/- An address; its parts are escaped as they are written. -/
structure Address where
  scheme : String
  user : List Char
  host : Option Host
  port : Option Nat
  path : List Char
  query : Option (List Char)
  fragment : Option (List Char)
deriving DecidableEq, Repr

namespace Address

------------------------------------------------------------
-- Schemes
------------------------------------------------------------

/- The schemes of the web and their ports. -/
def webPorts : List (String × Nat) :=
  [("http", 80), ("https", 443), ("ws", 80), ("wss", 443), ("ftp", 21)]

/- The text without blanks around it and breaks in it. -/
def tidy (cs : List Char) : List Char :=
  let blank := fun (c : Char) => decide (c.toNat ≤ 32)
  let trimmed := ((cs.dropWhile blank).reverse.dropWhile blank).reverse
  trimmed.filter fun c => c ≠ '\t' ∧ c ≠ '\n' ∧ c ≠ '\r'

/- The scheme of a text, which ends with a colon, and the rest. -/
def splitScheme? (cs : List Char) : Option (String × List Char) :=
  let letters :=
    cs.takeWhile fun c =>
      c.isAlphanum || c = '+' || c = '-' || c = '.'
  match letters, cs.drop letters.length with
  | c :: _, ':' :: rest =>
      if c.isAlpha then
        some (String.ofList (letters.map Char.toLower), rest)
      else
        none
  | _, _ => none

------------------------------------------------------------
-- Hosts and ports
------------------------------------------------------------

/- The text before its last `@`, and the text after it. -/
def splitUser (cs : List Char) : Option (List Char) × List Char :=
  match cs.reverse.span (· ≠ '@') with
  | (_, []) => (none, cs)
  | (host, _ :: user) => (some user.reverse, host.reverse)

/- The text before the first colon outside brackets. -/
def splitPort (inside : Bool) : List Char → List Char × List Char
  | [] => ([], [])
  | c :: rest =>
      if c = ':' ∧ inside = false then
        ([], c :: rest)
      else
        let (host, port) :=
          splitPort (if c = '[' then true else inside && c ≠ ']') rest
        (c :: host, port)

/- A port after its colon; none is written as no digits. -/
def port?
    (standard : Option Nat) : List Char → Option (Option Nat)
  | ':' :: digits =>
      if digits.all Char.isDigit then
        let n := digits.foldl (fun n c => n * 10 + Digits.value c) 0
        if 65535 < n then none
        else
          some
            (if digits = [] ∨ standard = some n then none else some n)
      else
        none
  | _ => some none

/- The characters that are escaped in the name of a user. -/
def userEscapes : List Char :=
  " \"#<>?`\x7b\x7d/:;=@[\\]^|".toList

/- The escaped name of a user, and a password if there is one. -/
def userText (cs : List Char) : List Char :=
  let (name, password) := cs.span (· ≠ ':')
  escape userEscapes name
    ++ match password.drop 1 with
      | [] => []
      | p => ':' :: escape userEscapes p

/- The user, host and port of an address. -/
def authority?
    (scheme : String)
    (cs : List Char) : Option (List Char × Host × Option Nat) := do
  let (user, rest) := splitUser cs
  let (name, port) := splitPort false rest
  let standard := webPorts.lookup scheme
  if name = [] ∧ (standard.isSome ∨ user.isSome ∨ port ≠ []) then
    none
  else
    let host ←
      if standard.isSome then Host.parse? name
      else Host.parseOpaque? name
    let port ← port? standard port
    some (userText (user.getD []), host, port)

------------------------------------------------------------
-- Paths
------------------------------------------------------------

/- The characters that are escaped in a path. -/
def pathEscapes : List Char :=
  " \"#<>?`\x7b\x7d".toList

/- A step of a path with its escaped dots written out. -/
def dots : List Char → List Char
  | '%' :: '2' :: e :: rest =>
      if e = 'e' ∨ e = 'E' then '.' :: dots rest
      else '%' :: '2' :: e :: dots rest
  | c :: rest => c :: dots rest
  | [] => []

/-
  The steps of a path, in reverse: one dot stays, two dots go
  back.  A path that ends with dots ends with a slash.
-/
def walk : List (List Char) → List (List Char) → List (List Char)
  | done, [] => done
  | done, step :: rest =>
      let after := fun done => if rest = [] then [] :: done else done
      if dots step = ['.', '.'] then
        walk (after (done.drop 1)) rest
      else if dots step = ['.'] then
        walk (after done) rest
      else
        walk (escape pathEscapes step :: done) rest

/- A path in its shortest form. -/
def pathText
    (web : Bool)
    (cs : List Char) : List Char :=
  let slashed :=
    if web then cs.map fun c => if c = '\\' then '/' else c else cs
  match slashed with
  | [] => if web then ['/'] else []
  | c :: rest =>
      let steps := Form.splitAtChar '/' (if c = '/' then rest else c :: rest)
      '/' :: ['/'].intercalate (walk [] steps).reverse

------------------------------------------------------------
-- Reading and writing
------------------------------------------------------------

/- The text after a path: a query and a fragment. -/
def ending
    (web : Bool)
    (cs : List Char) : Option (List Char) × Option (List Char) :=
  let (query, fragment) := cs.span (· ≠ '#')
  let queryEscapes := " \"#<>".toList ++ (if web then ['\''] else [])
  (if query = [] then none else some (escape queryEscapes (query.drop 1)),
    if fragment = [] then none
    else some (escape " \"<>`".toList (fragment.drop 1)))

/- The text after the slashes that announce a host, if any. -/
def afterSlashes?
    (scheme : String)
    (cs : List Char) : Option (List Char) :=
  let isSlash := fun (c : Char) => c = '/' || c = '\\'
  if (webPorts.lookup scheme).isSome then
    some (cs.dropWhile isSlash)
  else if scheme = "file" then
    match cs with
    | a :: b :: rest =>
        if isSlash a && isSlash b then some rest else none
    | _ => none
  else
    match cs with
    | '/' :: '/' :: rest => some rest
    | _ => none

/- An address, from the text after its scheme. -/
def afterScheme?
    (scheme : String)
    (cs : List Char) : Option Address := do
  let web := (webPorts.lookup scheme).isSome || scheme = "file"
  let ends := fun (c : Char) =>
    c = '/' || c = '?' || c = '#' || (web && c = '\\')
  let (front, rest) :=
    match afterSlashes? scheme cs with
    | some rest =>
        let (front, rest) := rest.span fun c => !ends c
        (some front, rest)
    | none => (none, cs)
  let (user, host, port) ←
    match front with
    | none => some ([], none, none)
    | some front =>
        if scheme = "file" then
          if front = [] ∨ front.map Char.toLower = "localhost".toList then
            some ([], some (.name []), none)
          else
            (Host.parse? front).map fun h => ([], some h, none)
        else
          (authority? scheme front).map fun (u, h, p) => (u, some h, p)
  let (path, rest) := rest.span fun c => c ≠ '?' && c ≠ '#'
  let (query, fragment) := ending web rest
  some
    { scheme := scheme
      user := user
      host :=
        if scheme = "file" then some (host.getD (.name [])) else host
      port := port
      path :=
        if web ∨ front.isSome ∨ path.head? = some '/' then
          pathText web path
        else
          escape [] path
      query := query
      fragment := fragment }

/- Reads an address. -/
def parse? (text : String) : Option Address := do
  let (scheme, rest) ← splitScheme? (tidy text.toList)
  afterScheme? scheme rest

/- The text of an address. -/
def text (a : Address) : String :=
  String.ofList
    (a.scheme.toList ++ ':'
        :: (match a.host with
          | none => []
          | some h =>
              '/' :: '/' :: a.user ++ (if a.user = [] then [] else ['@'])
                ++ h.text
                ++ (a.port.elim [] fun n => ':' :: Digits.ofNat n))
      ++ a.path
      ++ (a.query.elim [] fun q => '?' :: q)
      ++ (a.fragment.elim [] fun f => '#' :: f))

end Address

end Http

end TradeTape
