import AnnotationCheck.Disk.Basic

/-!
Walkers: what lists the files below a starting point.

Which files a walker leaves out, and in which order it goes, is its own affair. Of every entry it says where it
lies and whether it is a file.
-/

namespace AnnotationCheck.Disk

/-- What a walker comes upon. -/
structure Walked where
  path : Path
  isFile : Bool
  deriving DecidableEq, Repr

/-- A walker through a disk. -/
class Walker where
  /-- What lies at a starting point and below it, in the order of the walk. -/
  walk : Disk → Path → List Walked

end AnnotationCheck.Disk
