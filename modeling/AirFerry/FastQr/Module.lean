import AirFerry.Exec
import AirFerry.FastQr.Compact

/-!
# Modules and the matrix

A module is a colour and what it is part of; the source packs both into one byte. The matrix is one
array for the largest version, of which the first `size * size` entries are used. The loops that
draw fixed patterns are lists of assignments here, in the order of the loops.
-/

namespace AirFerry.FastQr

inductive ModuleType
  | data
  | finderPattern
  | alignment
  | timing
  | format
  | version
  | darkModule
  | empty
deriving DecidableEq, Repr

structure Module where
  moduleType : ModuleType
  value : Bool
deriving DecidableEq, Repr

namespace Module

def light : Bool := false
def dark : Bool := true

def data (value : Bool) : Module := ⟨.data, value⟩
def finderPattern (value : Bool) : Module := ⟨.finderPattern, value⟩
def alignment (value : Bool) : Module := ⟨.alignment, value⟩
def timing (value : Bool) : Module := ⟨.timing, value⟩
def format (value : Bool) : Module := ⟨.format, value⟩
def version (value : Bool) : Module := ⟨.version, value⟩
def darkModule (value : Bool) : Module := ⟨.darkModule, value⟩
def empty (value : Bool) : Module := ⟨.empty, value⟩

def set (m : Module) (value : Bool) : Module := { m with value }
def toggle (m : Module) : Module := { m with value := !m.value }

end Module

def qrMaxWidth : Nat := 177
def qrMaxModules : Nat := qrMaxWidth * qrMaxWidth

structure QRCode where
  data : List Module
  size : Nat
deriving DecidableEq, Repr

/-- An assignment `qr[y][x] = module`. -/
abbrev Write := (Nat × Nat) × Module

namespace QRCode

def default (size : Nat) : QRCode :=
  { data := List.replicate qrMaxModules (Module.data Module.light), size }

/-- `qr[y][x]`: the row is a slice of the array. -/
def get (qr : QRCode) (y x : Nat) : Exec Module := do
  let row ← slice qr.data (y * qr.size) ((y + 1) * qr.size)
  index row x

def put (qr : QRCode) (y x : Nat) (m : Module) : Exec QRCode :=
  if (y + 1) * qr.size ≤ qr.data.length then
    if x < qr.size then .ok { qr with data := qr.data.set (y * qr.size + x) m }
    else .error .indexOutOfRange
  else .error .sliceOutOfRange

def putAll (qr : QRCode) (writes : List Write) : Exec QRCode :=
  writes.foldlM (fun qr w => qr.put w.1.1 w.1.2 w.2) qr

end QRCode
end AirFerry.FastQr
