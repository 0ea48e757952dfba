import Ovsdb.Error

/-! Where a server listens, and the settings of a client. -/

namespace Ovsdb

/-- A text in front of its first colon, and behind it. -/
def splitAtColon : List Char → Option (List Char × List Char)
  | [] => none
  | c :: rest =>
    if c = ':' then some ([], rest)
    else (splitAtColon rest).map fun p => (c :: p.1, p.2)

/-- Where a server is reached. -/
inductive Address where
  | tcp (target : String)
  | unix (path : String)
deriving DecidableEq

namespace Address

/-- Reads `tcp:<host>:<port>` or `unix:<path>`; all that follows the first colon belongs to the target. -/
def ofString (s : String) : Except Error Address :=
  match splitAtColon s.toList with
  | none | some (_, []) => .error (.connection (.invalidAddress s))
  | some (protocol, target@(_ :: _)) =>
    if protocol = "tcp".toList then .ok (.tcp (String.ofList target))
    else if protocol = "unix".toList then .ok (.unix (String.ofList target))
    else .error (.connection (.unknownProtocol (String.ofList protocol)))

def text : Address → String
  | .tcp target => "tcp:" ++ target
  | .unix path => "unix:" ++ path

/-- The names along a path. The first one is empty if the path is absolute; further on, empty names and single dots
    lead nowhere. -/
def pathNames (path : String) : List (List Char) :=
  match path.toList.splitOn '/' with
  | [] => []
  | first :: rest => first :: rest.filter fun name => name != [] && name != ['.']

/-- Whether two addresses are equal. Paths are compared name by name, so `/run//db` and `/run/db` are the same. -/
def same : Address → Address → Bool
  | .tcp a, .tcp b => a == b
  | .unix a, .unix b => pathNames a == pathNames b
  | _, _ => false

/-- The usual socket of a server on the same machine. -/
def localSocket : Address := .unix "/var/run/openvswitch/db.sock"

end Address

/-! ### Settings -/

/-- A client's settings: whom to connect to, and every how many seconds to make sure that the server still
    answers. -/
structure Config where
  address : Address
  keepalive : Option Nat
deriving DecidableEq

namespace Config

/-- The server on the local socket, without keepalives. -/
def default : Config := ⟨.localSocket, none⟩

/-- Equality of settings; paths are compared by their parts. -/
def same (c d : Config) : Bool :=
  c.address.same d.address && c.keepalive == d.keepalive

/-- Reads the settings, the address first. No interval, or one of zero, means that the server is not asked. -/
def ofValues (address keepalive : Option String) : Except Error Config := do
  let address ← match address with
    | some s => Address.ofString s
    | none => pure .localSocket
  match keepalive with
  | none => return ⟨address, none⟩
  | some s =>
    match Text.parseWord s.toList with
    | some n => return ⟨address, if n = 0 then none else some n⟩
    | none => throw (.connection (.invalidSetting "OVSDB_KEEPALIVE_SECS" s))

/-- Reads the settings from the environment, where an empty value counts as none. -/
def ofEnvironment (address keepalive : Option String) : Except Error Config :=
  ofValues (address.filter fun s => !s.isEmpty) (keepalive.filter fun s => !s.isEmpty)

end Config

/-! ### Targets that cannot be dialled -/

namespace Address

def isPort (s : List Char) : Bool :=
  (Text.parseWord s).any fun n => decide (n < UInt16.size)

/-- Why dialling an address fails when nothing listens there. -/
def fault (a : Address) : Error :=
  let reason := match a with
    | .tcp target =>
      match Text.splitAtLast [':'] target.toList with
      | none => "invalid socket address"
      | some (_, port) => if isPort port then "Connection refused (os error 111)" else "invalid port value"
    | .unix path =>
      if path.toList.contains '\x00' then "paths must not contain interior null bytes"
      else if path.utf8ByteSize < 108 then "No such file or directory (os error 2)"
      else "path must be shorter than SUN_LEN"
  .connection (.unreachable a.text reason)

end Address
end Ovsdb
