import Wiring.Path.Normal

/-! Locations: absolute paths in normal form, so that a place has one spelling. -/
namespace Wiring

structure Location where
  text : String
  isAbsolute : Path.isAbsolute text = true
  isNormal : Path.normal text = text
deriving DecidableEq

namespace Location

def root : Location := ⟨"/", rfl, rfl⟩
instance : Inhabited Location := ⟨root⟩

def ofBase (base part : String) (h : Path.isAbsolute base = true) : Location where
  text := Path.normal (Path.join base part)
  isAbsolute := by rw [Path.isAbsolute_normal]; exact Path.isAbsolute_join h part
  isNormal := Path.normal_normal _

def join (l : Location) (part : String) : Location := ofBase l.text part l.isAbsolute

def directory (l : Location) : String := Path.directory l.text

/-- A resource that the file at a location names. -/
def resource (l : Location) (part : String) : Location :=
  ofBase l.directory part (Path.isAbsolute_directory l.isAbsolute)

def ofText? (s : String) : Option Location :=
  if h : Path.isAbsolute s = true ∧ Path.normal s = s then some ⟨s, h.1, h.2⟩ else none

theorem ofText?_text (l : Location) : ofText? l.text = some l := by
  simp [ofText?, l.isAbsolute, l.isNormal]

theorem text_injective : Function.Injective text := by
  intro l m h
  have hm := l.ofText?_text
  rw [h, ofText?_text] at hm
  exact (Option.some.inj hm).symm

theorem join_text (l m : Location) : l.join m.text = m := by
  obtain ⟨t, ha, hn⟩ := m
  simp [join, ofBase, Path.join, ha, hn]

end Location
end Wiring
