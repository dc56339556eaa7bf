namespace MusicIndex.Text

def asciiLower (s : String) : String :=
  String.ofList (s.toList.map Char.toLower)

def sameAscii (s t : String) : Bool :=
  asciiLower s == asciiLower t

theorem sameAscii_refl (s : String) : sameAscii s s = true := by
  simp [sameAscii]

theorem sameAscii_comm (s t : String) : sameAscii s t = sameAscii t s := by
  simp [sameAscii, Bool.beq_comm]

theorem sameAscii_congr {s t u : String} (h : sameAscii s t = true) :
    sameAscii u s = sameAscii u t := by
  unfold sameAscii at *
  rw [beq_iff_eq.mp h]

end MusicIndex.Text
