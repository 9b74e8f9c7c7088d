import Piet.Files
import Piet.Grid

/-! Reading a program from a picture file. -/
namespace Piet

inductive LoadError where
  | nulInName
  | notFound (name : String)
  | unopened (name : String) (error : OpenError)
  | undecoded (name : String) (error : DecodeError)
  | notMultiple (width height : Nat) (codelSize : Int)
  | grid (error : Error)
  deriving DecidableEq

def LoadError.message : LoadError → String
  | nulInName => nulMessage
  | notFound name => "Image file not found: " ++ name
  | unopened name e => "Failed to open image: " ++ e.message name
  | undecoded name e => "Failed to open image: " ++ e.message name
  | notMultiple w h c => s!"Image {w}x{h} is not a multiple of codel size {c}"
  | grid e => e.message

/-- A program drawn with codels of the given size; a size below two leaves the picture as it is. -/
def Grid.ofCodels (im : Image) (codelSize : Int) : Except LoadError Grid :=
  if codelSize ≤ 1 then (ofImage im).mapError .grid
  else
    let c := codelSize.toNat
    if im.width % c = 0 ∧ im.height % c = 0 then (ofImage (im.shrink c)).mapError .grid
    else .error (.notMultiple im.width im.height codelSize)

def Files.loadGrid (files : Files) (name : String) (codelSize : Int) : Except LoadError Grid :=
  if holdsNul name then .error .nulInName
  else match files name with
    | .error .notFound => .error (.notFound name)
    | .error e => .error (.unopened name e)
    | .ok file =>
      match file.picture with
      | .error e => .error (.undecoded name e)
      | .ok im => Grid.ofCodels im codelSize

end Piet
