/-! # Columns of fixed width

A value shorter than its column is filled up with spaces; a longer one is written in full.
Width is counted in characters. -/

namespace EgressControl.Text

/-- Fills a text up with spaces on the right. -/
def padRight (width : Nat) (s : String) : String :=
  s ++ String.ofList (List.replicate (width - s.length) ' ')

/-- Fills a text up with spaces on the left. -/
def padLeft (width : Nat) (s : String) : String :=
  String.ofList (List.replicate (width - s.length) ' ') ++ s

/-- `padRight` fills a text up to its width, and shortens none. -/
theorem length_padRight (width : Nat) (s : String) :
    (padRight width s).length = max width s.length := by
  simp only [padRight, String.length_append, String.length_ofList, List.length_replicate]
  omega

end EgressControl.Text
