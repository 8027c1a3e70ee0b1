import Conformance.Platform
/-!
# What is relied on about files

A program that writes its reports one after the other relies on three things about the files of its
platform. They are stated here for any way of telling to which regular file a path leads.
-/

namespace Conformance

/-- What is relied on about the files of a platform, where `fileAt` tells to which regular file a
path leads. -/
structure Platform.FileLaws {σ ι : Type} (p : Platform σ) (fileAt : σ → Path → Option ι) :
    Prop where
  /-- A regular file that was written reads back. -/
  reads_written {s t : σ} {path : Path} {text : String} {i : ι}
    (h : p.writeText path text s = (.ok (), t)) (hi : fileAt t path = some i) :
    (p.readText path t).1 = .ok text
  /-- Writing, even if it fails, leaves every other regular file as it was. -/
  keeps_others {s t : σ} {path other : Path} {text : String} {answer : Except IoError Unit} {i : ι}
    (h : p.writeText path text s = (answer, t)) (hi : fileAt t other = some i)
    (hother : fileAt t path ≠ some i) :
    fileAt s other = some i ∧ (p.readText other t).1 = (p.readText other s).1
  /-- What is printed goes to no file that is looked at here. -/
  keeps_printing (s : σ) (said : String) (path : Path) :
    fileAt (p.print said s).2 path = fileAt s path ∧
      (p.readText path (p.print said s).2).1 = (p.readText path s).1

end Conformance
