import ByteMachine.Sink

/-!
# Full sinks

A write fails only if it exceeds the limit of the sink, and then the sink is full: it takes nothing
any more, and the same write fails again without a trace (`write_write_of_not_fits`).

A line may be handed over in pieces, one write after the other up to the first one that fails. For
the sink this makes no difference (`writePieces_eq`): the limit may fall inside a piece or between
two of them, and what is taken is the beginning of the line in either case.

`Sink.withLimit` sets a limit. For as long as everything fits it changes nothing, and then it cuts
off what has been written at the limit (`toList_write_withLimit`).
-/

namespace ByteMachine.Sink

variable {s t : Sink} {bytes xs ys : List Byte} {n : Nat}

/-- A sink is given by what it has taken and by its limit. -/
theorem ext_toList (hlimit : s.limit = t.limit) (h : s.toList = t.toList) : s = t := by
  obtain ⟨taken, limit⟩ := s
  obtain ⟨taken', limit'⟩ := t
  cases hlimit
  congr 1
  exact Array.ext' h

/-- The bytes that a sink has taken are counted by its array. -/
theorem length_toList (s : Sink) : s.toList.length = s.taken.size :=
  Array.length_toList

/-- A write makes a sink longer by as much as it accepts. -/
theorem size_taken_write (s : Sink) (bytes : List Byte) :
    (s.write bytes).taken.size = s.taken.size + (s.accepted bytes).length := by
  rw [← length_toList, toList_write, List.length_append, length_toList]

/-- What a sink accepts is the beginning of what it is given. -/
theorem accepted_isPrefix (s : Sink) (bytes : List Byte) : s.accepted bytes <+: bytes := by
  unfold accepted
  split
  · exact List.prefix_rfl
  · exact List.take_prefix ..

/-- Of nothing, nothing is accepted. -/
theorem accepted_nil (s : Sink) : s.accepted [] = [] :=
  List.prefix_nil.mp (s.accepted_isPrefix [])

/-- Without a limit everything is accepted. -/
theorem accepted_of_unlimited (h : s.limit = none) : s.accepted bytes = bytes := by
  rw [accepted, h]

/-- Without a limit everything fits. -/
theorem fits_of_unlimited (h : s.limit = none) : s.fits bytes = true := by
  rw [fits, h]

section Limit

variable (hlimit : s.limit = some n)

include hlimit

/-- With a limit, a write fills what room is left. -/
theorem accepted_of_limit : s.accepted bytes = bytes.take (n - s.taken.size) := by
  rw [accepted, hlimit]

/-- With a limit, a write fits if it stays within. -/
theorem fits_iff_of_limit : s.fits bytes ↔ s.taken.size + bytes.length ≤ n := by
  rw [fits, hlimit]
  exact decide_eq_true_iff

end Limit

/-- A write that does not fit exceeds a limit. -/
theorem exists_limit_of_not_fits (h : ¬s.fits bytes) :
    ∃ n, s.limit = some n ∧ n < s.taken.size + bytes.length := by
  cases hlimit : s.limit with
  | none => exact absurd (fits_of_unlimited hlimit) h
  | some n =>
    rw [fits_iff_of_limit hlimit] at h
    exact ⟨n, rfl, Nat.lt_of_not_le h⟩

/-! ### A write that has failed -/

/-- After a write that fails, the sink has no room left. -/
theorem limit_le_of_not_fits (hlimit : s.limit = some n) (h : ¬s.fits bytes) :
    n ≤ (s.write bytes).taken.size := by
  rw [fits_iff_of_limit hlimit] at h
  rw [size_taken_write, accepted_of_limit hlimit, List.length_take]
  -- as the write exceeds the limit, what it leaves fills the sink
  omega

/-- After a write that fails nothing is accepted any more. -/
theorem accepted_write_of_not_fits (h : ¬s.fits bytes) : (s.write bytes).accepted xs = [] := by
  obtain ⟨n, hlimit, -⟩ := exists_limit_of_not_fits h
  have hfull := limit_le_of_not_fits hlimit h
  -- a write does not change the limit
  have hwrite : (s.write bytes).limit = some n := hlimit
  rw [accepted_of_limit hwrite, Nat.sub_eq_zero_of_le hfull, List.take_zero]

/-- A write that has failed would fail again. -/
theorem not_fits_write_of_not_fits (h : ¬s.fits bytes) : ¬(s.write bytes).fits bytes := by
  obtain ⟨n, hlimit, hlt⟩ := exists_limit_of_not_fits h
  have hwrite : (s.write bytes).limit = some n := hlimit
  rw [fits_iff_of_limit hwrite, size_taken_write, accepted_of_limit hlimit, List.length_take]
  omega

/-- **A write that has failed fails again and changes nothing.** -/
theorem write_write_of_not_fits (h : ¬s.fits bytes) :
    (s.write bytes).write bytes = s.write bytes := by
  refine ext_toList rfl ?_
  rw [toList_write (s.write bytes), accepted_write_of_not_fits h, List.append_nil]

/-! ### A line in pieces -/

/-- Hands over a line in pieces, up to the first one that the sink does not take. The result also
says whether it took all of them. -/
def writePieces (s : Sink) : List (List Byte) → Sink × Bool
  | [] => (s, true)
  | piece :: pieces =>
    if s.fits piece then (s.write piece).writePieces pieces else (s.write piece, false)

/-- Of a line whose beginning fits, the sink takes the beginning and then as much as it takes
afterwards. -/
theorem accepted_append_of_fits (h : s.fits xs) :
    s.accepted (xs ++ ys) = xs ++ (s.write xs).accepted ys ∧
      s.fits (xs ++ ys) = (s.write xs).fits ys := by
  -- the beginning was taken in full, so the room that is left is known
  have hsize : (s.write xs).taken.size = s.taken.size + xs.length := by
    rw [size_taken_write, accepted_of_fits h]
  cases hlimit : s.limit with
  | none =>
    have hwrite : (s.write xs).limit = none := hlimit
    rw [accepted_of_unlimited hlimit, accepted_of_unlimited hwrite, fits_of_unlimited hlimit,
      fits_of_unlimited hwrite]
    exact ⟨rfl, rfl⟩
  | some n =>
    have hwrite : (s.write xs).limit = some n := hlimit
    rw [fits_iff_of_limit hlimit] at h
    refine ⟨?_, ?_⟩
    · -- the room that the beginning takes up is missing behind it
      rw [accepted_of_limit hlimit, accepted_of_limit hwrite, hsize, List.take_append,
        List.take_of_length_le (by omega), Nat.sub_sub]
    · rw [Bool.eq_iff_iff, fits_iff_of_limit hwrite, fits_iff_of_limit hlimit, hsize,
        List.length_append, Nat.add_assoc]

/-- A line whose beginning fits can be written in two parts. -/
theorem write_append_of_fits (h : s.fits xs) : s.write (xs ++ ys) = (s.write xs).write ys := by
  refine ext_toList rfl ?_
  calc (s.write (xs ++ ys)).toList
      = s.toList ++ s.accepted (xs ++ ys) := toList_write ..
    _ = (s.toList ++ xs) ++ (s.write xs).accepted ys := by
      rw [(accepted_append_of_fits h).1, List.append_assoc]
    _ = (s.write xs).toList ++ (s.write xs).accepted ys := by
      rw [toList_write s, accepted_of_fits h]
    _ = ((s.write xs).write ys).toList := (toList_write ..).symm

/-- Behind a piece that the sink does not take, the rest does not count. -/
theorem write_append_of_not_fits (h : ¬s.fits xs) :
    s.write (xs ++ ys) = s.write xs ∧ s.fits (xs ++ ys) = false := by
  obtain ⟨n, hlimit, hlt⟩ := exists_limit_of_not_fits h
  refine ⟨ext_toList rfl ?_, ?_⟩
  · -- the limit falls into `xs`
    have hle : n - s.taken.size ≤ xs.length := by omega
    rw [toList_write, toList_write, accepted_of_limit hlimit, accepted_of_limit hlimit,
      List.take_append_of_le_length hle]
  · -- with `xs` alone the limit is exceeded, so all the more with `ys` behind it
    rw [← Bool.not_eq_true, fits_iff_of_limit hlimit, List.length_append]
    omega

/-- **To hand over a line in pieces is to hand it over at once.** -/
theorem writePieces_eq {pieces : List (List Byte)} (hroom : s.fits []) :
    s.writePieces pieces = (s.write pieces.flatten, s.fits pieces.flatten) := by
  induction pieces generalizing s with
  | nil =>
    -- no pieces are always taken, so a write of nothing must not fail either
    have hnil : s.write [] = s := by
      refine ext_toList rfl ?_
      rw [toList_write, accepted_nil, List.append_nil]
    rw [List.flatten_nil, hnil, hroom, writePieces]
  | cons piece pieces ih =>
    rw [List.flatten_cons, writePieces]
    split
    · next hfits =>
      have hroom' : (s.write piece).fits [] := by
        rw [← (accepted_append_of_fits hfits).2, List.append_nil]
        exact hfits
      rw [ih hroom', write_append_of_fits hfits, (accepted_append_of_fits hfits).2]
    · next hfits =>
      have hrest : s.write (piece ++ pieces.flatten) = s.write piece ∧
          s.fits (piece ++ pieces.flatten) = false := write_append_of_not_fits hfits
      rw [hrest.1, hrest.2]

/-! ### Setting a limit -/

/-- The sink with everything that it has taken, and a limit. -/
def withLimit (s : Sink) (n : Nat) : Sink :=
  { s with limit := some n }

/-- What fits below the limit is counted together with what has been taken. -/
theorem fits_withLimit_iff : (s.withLimit n).fits bytes ↔ (s.toList ++ bytes).length ≤ n := by
  rw [fits_iff_of_limit rfl, List.length_append, length_toList]
  exact Iff.rfl

/-- A write that stays below the limit is the write without it. -/
theorem write_withLimit_of_fits (hlimit : s.limit = none) (h : (s.withLimit n).fits bytes) :
    (s.withLimit n).write bytes = (s.write bytes).withLimit n := by
  refine ext_toList rfl ?_
  calc ((s.withLimit n).write bytes).toList
      = s.toList ++ (s.withLimit n).accepted bytes := toList_write ..
    _ = s.toList ++ bytes := by rw [accepted_of_fits h]
    _ = (s.write bytes).toList := by rw [toList_write, accepted_of_unlimited hlimit]

/-- **The limit cuts off what is written.** -/
theorem toList_write_withLimit (h : s.toList.length ≤ n) :
    ((s.withLimit n).write bytes).toList = (s.toList ++ bytes).take n := by
  have haccepted : (s.withLimit n).accepted bytes = bytes.take (n - s.toList.length) := by
    rw [accepted_of_limit rfl, length_toList]
    rfl
  rw [toList_write, haccepted, List.take_append, List.take_of_length_le h]
  rfl

end ByteMachine.Sink
