import Conformance.Machine.Shell.Session
import Conformance.Machine.Turn
import Conformance.Machine.Utility
/-!
# The system of a machine

What is on a machine when it is started: the shell and the utilities among its programs, a few devices,
and an empty directory to work in.
-/

namespace Conformance.Machine.System

/-- The task of a program of the system. -/
def loader : Loader := fun name arguments environment ↦
  if name = "dash" then Shell.task arguments environment
  else
    match Utility.all.lookup name with
    | some utility => utility arguments environment fun code ↦ .exit code
    | none => .exit 127

def programs : List (String × FileNode) :=
  ("sh", .link "dash") :: ("dash", .program "dash") ::
    Utility.all.map fun u ↦ (u.1, .program u.1)

def workDirectory : Location := ["tmp", "work"]

/-- The tree of the system. -/
def tree : FileTree where
  root := .directory
    [("bin", .link "usr/bin"), ("dev", .directory [("null", .device .null), ("zero", .device .zero)]),
      ("etc", .directory []), ("home", .directory []),
      ("root", .directory []), ("sbin", .link "usr/sbin"),
      ("tmp", .directory [("work", .directory [])]),
      ("usr", .directory [("bin", .directory programs), ("sbin", .directory [])])]
  current := workDirectory

/-- The environment that programs are started with. -/
def environment : List (String × String) :=
  [("HOME", "/root"), ("PATH", "/usr/local/sbin:/usr/local/bin:/usr/sbin:/usr/bin:/sbin:/bin"),
    ("PWD", "/tmp/work")]

/-- The directories in which programs are looked for. -/
def searchPath : List String := ((environment.lookup "PATH").getD "").splitOn ":"

def boot : Machine where
  clock := 0
  tree := tree
  processes := []
  lastPid := 999
  openFiles := []
  pipes := []
  nextId := 1
  loader := loader

end Conformance.Machine.System
