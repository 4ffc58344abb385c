/-!
# Padding

Text filled up with spaces to the width of a column.  Text that is too wide is left as it is.
-/

namespace Trainer51

/-- `s` at the left of a column. -/
def padRight (width : Nat) (s : String) : String :=
  String.ofList (s.toList ++ List.replicate (width - s.length) ' ')

/-- `s` in the middle of a column; a space that cannot be halved goes to the right. -/
def padAround (width : Nat) (s : String) : String :=
  let spare := width - s.length
  String.ofList
    (List.replicate (spare / 2) ' ' ++ s.toList ++ List.replicate (spare - spare / 2) ' ')

end Trainer51
