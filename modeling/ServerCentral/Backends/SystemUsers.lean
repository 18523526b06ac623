import ServerCentral.Backends.Commands

/-!
# The backend of the system users

The accounts of a host, listed, looked up, created and put into groups. What the listings
make of the output is left out.
-/

open Framework

namespace ServerCentral.Backends

open Auth (trim)

namespace SystemUsers

/-- `SYSTEM_USERNAME_RE`: at most 32 characters and a trailing `$`. -/
def systemUsername (s : String) : Bool :=
  match s.toList with
  | [] => false
  | c :: cs =>
    let body := if cs.getLast? = some '$' then cs.dropLast else cs
    (c.isLower || c == '_') && decide (body.length ≤ 31) &&
      body.all fun c => c.isLower || c.isDigit || c == '_' || c == '-'

def assertSystemUsername (name : String) : HostScript Unit :=
  Script.require (systemUsername name) s!"Invalid system username: {name}"

def assertGroups : List String → HostScript Unit
  | [] => pure ()
  | group :: rest => do
    assertSystemUsername group
    assertGroups rest

/-- The first or the last line of what a command printed. -/
def printed (res : ExecResult) : List String := (trim (res.stdout ++ res.stderr)).splitOn "\n"

def systemUsersList : HostScript (Except String (ExecResult × ExecResult)) := do
  let passwd ← run [.word "getent", .word "passwd"]
  if passwd.code ≠ 0 then pure (.error (orElse ((printed passwd).headD "") "getent unavailable"))
  else
    let group ← run [.word "getent", .word "group"]
    pure (.ok (passwd, group))

def systemUserCreate (username : String) (groups : List String) : HostScript Unit := do
  assertSystemUsername username
  assertGroups groups
  let bash ← run [.word "test", .word "-x", .word "/bin/bash"]
  let shell := if bash.code = 0 then "/bin/bash" else "/bin/sh"
  let flags : Argv := [.word "-m", .word "-s", .word shell] ++
    if groups.length > 0 then [.word "-G", .caller (",".intercalate groups)] else []
  let res ← run ([.word "useradd"] ++ flags ++ [.caller username])
  Script.require (res.code = 0) (orElse ((printed res).getLastD "") "useradd failed")

/-- The entry of an account and the groups, if the account is there. -/
def systemUserLookup (username : String) :
    HostScript (Except String (Option (ExecResult × ExecResult))) := do
  assertSystemUsername username
  let passwd ← run [.word "getent", .word "passwd", .caller username]
  if passwd.code = 2 then pure (.ok none)
  else if passwd.code ≠ 0 then
    pure (.error (orElse ((printed passwd).headD "") "getent unavailable"))
  else
    let group ← run [.word "getent", .word "group"]
    pure (.ok (some (passwd, group)))

def systemUserSetGroups (username : String) (groups : List String) : HostScript Unit := do
  assertSystemUsername username
  assertGroups groups
  let res ← run [.word "usermod", .word "-G", .caller (",".intercalate groups), .caller username]
  Script.require (res.code = 0) (orElse ((printed res).getLastD "") "usermod failed")

end SystemUsers
end ServerCentral.Backends
