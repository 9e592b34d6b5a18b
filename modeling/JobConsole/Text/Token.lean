/-! # Token characters

The characters that stand for themselves in a path segment, in a file name and in a URL: letters and
digits of ASCII, the dot, the underscore and the hyphen.
-/

namespace JobConsole.Text

def isTokenChar (c : Char) : Bool :=
  c.isAlphanum || c = '.' || c = '_' || c = '-'

def isToken (s : String) : Bool := s.toList.all isTokenChar

/-- Every other character becomes an underscore. -/
def toToken (s : String) : String :=
  String.ofList (s.toList.map fun c => if isTokenChar c then c else '_')

theorem isToken_toToken (s : String) : isToken (toToken s) = true := by
  simp only [isToken, toToken, String.toList_ofList, List.all_map, List.all_eq_true]
  intro c _
  by_cases h : isTokenChar c = true
  · simp [h]
  · have hf : isTokenChar c = false := by simpa using h
    simp [hf]
    decide

end JobConsole.Text
