import FesTerm.Core.Unicode

/-!
# Document identity

`identity.rs`: where a document's bytes come from, and the key two views must share to be views of
one document. The key is a formatted text. Its remote form is the `Debug` rendering of a tuple, so
the texts in it are quoted and escaped; `CharTables` stands for the two Unicode tables of the
standard library that the escaping consults. Its local form is `Path::display`, which shows a path
through its lossy decoding.

A `String` is the list of its characters and a Unix path the list of its bytes.
-/

namespace FesTerm.Document

abbrev Text := List Char

/-- `char::is_whitespace`, the `White_Space` property. -/
def isWhitespace (c : Char) : Bool :=
  decide (0x09 ≤ c.toNat ∧ c.toNat ≤ 0x0d) || decide (0x2000 ≤ c.toNat ∧ c.toNat ≤ 0x200a) ||
    [0x20, 0x85, 0xa0, 0x1680, 0x2028, 0x2029, 0x202f, 0x205f, 0x3000].contains c.toNat

def trim (text : Text) : Text :=
  ((text.dropWhile isWhitespace).reverse.dropWhile isWhitespace).reverse

def toAsciiLowercase (c : Char) : Char :=
  if 'A' ≤ c ∧ c ≤ 'Z' then Char.ofNat (c.toNat + 32) else c

/-- The tables behind `char::escape_debug`. -/
class CharTables where
  graphemeExtended : Char → Bool
  printable : Char → Bool

/-- The tables on ASCII: the visible characters and the space are printable. -/
@[reducible] def CharTables.ascii : CharTables where
  graphemeExtended _ := false
  printable c := decide (0x20 ≤ c.toNat ∧ c.toNat < 0x7f)

def escapeUnicode (c : Char) : Text :=
  "\\u\x7b".toList ++ Nat.toDigits 16 c.toNat ++ ['\x7d']

/-- The characters that `char::escape_debug` writes as a backslash and a letter. -/
def shortEscape : Char → Option Char
  | '\x00' => some '0'
  | '\t' => some 't'
  | '\r' => some 'r'
  | '\n' => some 'n'
  | '"' => some '"'
  | '\\' => some '\\'
  | _ => none

/-- `char::escape_debug_ext` as `str` uses it: grapheme extenders and the double quote are
escaped, the single quote is not. -/
def escapeDebug [CharTables] (c : Char) : Text :=
  match shortEscape c with
  | some letter => ['\\', letter]
  | none =>
    if CharTables.graphemeExtended c then escapeUnicode c
    else if CharTables.printable c then [c]
    else escapeUnicode c

/-- `<str as Debug>::fmt`. -/
def debugStr [CharTables] (text : Text) : Text :=
  '"' :: (text.flatMap escapeDebug ++ ['"'])

/-- `<Option<String> as Debug>::fmt`. -/
def debugOption [CharTables] : Option Text → Text
  | none => "None".toList
  | some text => "Some(".toList ++ debugStr text ++ [')']

/-- The `Debug` rendering of a tuple whose components are rendered already. -/
def debugTuple (components : List Text) : Text :=
  '(' :: (List.intercalate ", ".toList components ++ [')'])

/-- A maximal piece of `<[u8]>::utf8_chunks`: one encoded character, or one malformed sequence. -/
structure Utf8Chunk where
  bytes : List UInt8
  scalar : Option Char
deriving DecidableEq

/-- `core::str::utf8_char_width`. -/
def utf8CharWidth (lead : UInt8) : Nat :=
  if lead < 0x80 then 1
  else if inRange 0xc2 0xdf lead then 2
  else if inRange 0xe0 0xef lead then 3
  else if inRange 0xf0 0xf4 lead then 4
  else 0

def isContinuation (byte : UInt8) : Bool := inRange 0x80 0xbf byte

/-- `Utf8Chunks::next`, run to the end of the source: a malformed sequence ends before the first
byte that cannot continue it. -/
def utf8Chunks : List UInt8 → List Utf8Chunk
  | [] => []
  | a :: rest =>
    if a < 0x80 then ⟨[a], some (Char.ofNat a.toNat)⟩ :: utf8Chunks rest
    else
      match rest with
      | [] => [⟨[a], none⟩]
      | b :: rest =>
        if utf8CharWidth a < 2 || !validSecondByte a b then ⟨[a], none⟩ :: utf8Chunks (b :: rest)
        else if utf8CharWidth a = 2 then
          ⟨[a, b], some (Char.ofNat ((a.toNat % 32) * 64 + tailBits b))⟩ :: utf8Chunks rest
        else
          match rest with
          | [] => [⟨[a, b], none⟩]
          | c :: rest =>
            if !isContinuation c then ⟨[a, b], none⟩ :: utf8Chunks (c :: rest)
            else if utf8CharWidth a = 3 then
              ⟨[a, b, c], some (Char.ofNat ((a.toNat % 16) * 4096 + tailBits b * 64 + tailBits c))⟩
                :: utf8Chunks rest
            else
              match rest with
              | [] => [⟨[a, b, c], none⟩]
              | d :: rest =>
                if !isContinuation d then ⟨[a, b, c], none⟩ :: utf8Chunks (d :: rest)
                else
                  ⟨[a, b, c, d], some (Char.ofNat ((a.toNat % 8) * 262144 + tailBits b * 4096 +
                    tailBits c * 64 + tailBits d))⟩ :: utf8Chunks rest

/-- `Path::display`. -/
def displayPath (path : List UInt8) : Text :=
  (utf8Chunks path).map fun chunk => chunk.scalar.getD replacementCharacter

def pathPieces (path : List UInt8) : List (List UInt8) := path.splitOn 0x2f

/-- `Path::file_name` on Unix: the last component, where empty pieces and `.` are no components and
`..` is not a name. -/
def pathFileName (path : List UInt8) : Option (List UInt8) :=
  match (pathPieces path).reverse.dropWhile fun piece => piece.isEmpty || piece == [0x2e] with
  | [] => none
  | piece :: _ => if piece = [0x2e, 0x2e] then none else some piece

/-- Why an origin could not be built. -/
inductive OriginError
  | emptyPath
  | noFileName
  | emptyLabel
  | emptyHost
  | whitespaceHost
  | zeroPort
  | emptyFingerprint
  | emptyOwner
deriving DecidableEq

def nonEmpty (value : Text) (error : OriginError) : Except OriginError Text :=
  if (trim value).isEmpty then .error error else .ok (trim value)

/-- A validated local file identity. -/
structure LocalOrigin where
  path : List UInt8
  fileName : Text
deriving DecidableEq

def LocalOrigin.new (path : List UInt8) : Except OriginError LocalOrigin :=
  if path.isEmpty then .error .emptyPath
  else
    match (pathFileName path).bind fromUtf8 with
    | none => .error .noFileName
    | some name => if name.isEmpty then .error .noFileName else .ok ⟨path, name⟩

/-- Who a remote document is read and written as. -/
inductive RemoteOwner
  | username (username : Text)
  | profileIdentifier (profile : Text)
  | usernameAndProfile (username profileIdentifier : Text)
deriving DecidableEq

namespace RemoteOwner

/-- `RemoteOwner::username`. -/
def newUsername (username : Text) : Except OriginError RemoteOwner := do
  return .username (← nonEmpty username .emptyOwner)

/-- `RemoteOwner::profile_identifier`. -/
def newProfileIdentifier (identifier : Text) : Except OriginError RemoteOwner := do
  return .profileIdentifier (← nonEmpty identifier .emptyOwner)

/-- `RemoteOwner::username_and_profile`. -/
def newUsernameAndProfile (username profileIdentifier : Text) : Except OriginError RemoteOwner := do
  let username ← nonEmpty username .emptyOwner
  let profileIdentifier ← nonEmpty profileIdentifier .emptyOwner
  return .usernameAndProfile username profileIdentifier

def separator : Text := "/p:".toList

/-- The identity component of a document key. -/
def key : RemoteOwner → Text
  | username name => "u:".toList ++ name
  | profileIdentifier profile => "p:".toList ++ profile
  | usernameAndProfile name profile => "u:".toList ++ (name ++ separator ++ profile)

end RemoteOwner

/-- A validated SFTP file identity, pinned to one verified origin. -/
structure RemoteOrigin where
  sessionBinding : Option Text
  devTunnel : Bool
  host : Text
  port : UInt16
  owner : RemoteOwner
  verifiedHostKeyFingerprint : Text
  path : Text
  fileName : Text
  lifecycleGeneration : UInt64
deriving DecidableEq

namespace RemoteOrigin

def lastPiece (path : Text) : Option Text :=
  (path.splitOn '/').reverse.find? fun piece => !piece.isEmpty

def new (host : Text) (port : UInt16) (owner : RemoteOwner) (verifiedHostKeyFingerprint path : Text)
    (lifecycleGeneration : UInt64) : Except OriginError RemoteOrigin := do
  let host := (trim host).map toAsciiLowercase
  if host.isEmpty then throw .emptyHost
  if host.any isWhitespace then throw .whitespaceHost
  if port = 0 then throw .zeroPort
  let fingerprint := trim verifiedHostKeyFingerprint
  if fingerprint.isEmpty then throw .emptyFingerprint
  let path := trim path
  if path.isEmpty then throw .emptyPath
  match lastPiece path with
  | none => throw .noFileName
  | some fileName =>
    return { sessionBinding := none, devTunnel := false, host, port, owner,
             verifiedHostKeyFingerprint := fingerprint, path, fileName, lifecycleGeneration }

def withDevTunnelProvider (origin : RemoteOrigin) : RemoteOrigin := { origin with devTunnel := true }

def withLiveBinding (origin : RemoteOrigin) (binding : Text) : RemoteOrigin :=
  { origin with sessionBinding := some binding }

/-- `RemoteOrigin::with_path`: the same verified host, retargeted at another path. -/
def withPath (origin : RemoteOrigin) (path : Text) : Except OriginError RemoteOrigin := do
  let retargeted ← new origin.host origin.port origin.owner origin.verifiedHostKeyFingerprint path
    origin.lifecycleGeneration
  return { retargeted with devTunnel := origin.devTunnel, sessionBinding := origin.sessionBinding }

end RemoteOrigin

/-- An application-created document without a backing path. -/
structure UntitledOrigin where
  key : Text
  fileName : Text
  qualifiedLabel : Text
deriving DecidableEq

def UntitledOrigin.new (key fileName qualifiedLabel : Text) : Except OriginError UntitledOrigin := do
  let key ← nonEmpty key .emptyPath
  let fileName ← nonEmpty fileName .noFileName
  let qualifiedLabel ← nonEmpty qualifiedLabel .emptyLabel
  return ⟨key, fileName, qualifiedLabel⟩

/-- Where a document's bytes come from. -/
inductive DocumentOrigin
  | localFile (origin : LocalOrigin)
  | remote (origin : RemoteOrigin)
  | untitled (origin : UntitledOrigin)
deriving DecidableEq

namespace DocumentOrigin

def isRemote : DocumentOrigin → Bool
  | remote _ => true
  | _ => false

def isLocal : DocumentOrigin → Bool
  | localFile _ => true
  | _ => false

def isUntitled : DocumentOrigin → Bool
  | untitled _ => true
  | _ => false

end DocumentOrigin

/-- The tuple in a remote key, rendered. -/
def RemoteOrigin.debugIdentity [CharTables] (origin : RemoteOrigin) : Text :=
  debugTuple
    [debugStr origin.owner.key, debugStr origin.host, Nat.toDigits 10 origin.port.toNat,
     debugStr origin.verifiedHostKeyFingerprint,
     debugStr origin.path,
     Nat.toDigits 10 origin.lifecycleGeneration.toNat,
     debugOption origin.sessionBinding]

/-- `DocumentOrigin::key`: the comparison key two views must share to be views of one document. -/
def DocumentOrigin.key [CharTables] : DocumentOrigin → Text
  | localFile origin => "local:".toList ++ displayPath origin.path
  | remote origin =>
    (if origin.devTunnel then "dev-tunnel".toList else "sftp".toList) ++ ':' :: origin.debugIdentity
  | untitled origin => "untitled:".toList ++ origin.key

end FesTerm.Document
