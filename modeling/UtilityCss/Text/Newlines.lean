/-! Line ends: a carriage return, alone or before a line feed, reads as one line feed. -/
namespace UtilityCss.Text

/-- Reads every line end as a line feed. -/
def unifyNewlines : List Char → List Char
  | '\r' :: '\n' :: rest => '\n' :: unifyNewlines rest
  | '\r' :: rest => '\n' :: unifyNewlines rest
  | c :: rest => c :: unifyNewlines rest
  | [] => []

theorem not_mem_unifyNewlines (s : List Char) : '\r' ∉ unifyNewlines s := by
  fun_induction unifyNewlines s <;> simp_all [eq_comm]

end UtilityCss.Text
