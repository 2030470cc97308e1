import ByteMachine.Proofs.Machine.Commands

/-!
# Stack discipline

Data and return addresses share one stack, and the stack is ordinary memory. What keeps them apart
is nesting. In a well-nested word of commands every push has its pop and every call its return, and
they enclose well-nested words; in between, nothing touches the stack pointer.

A frame is one cell, at the address that opening it has decremented the stack pointer to. A
well-nested word of depth `d` puts the stack pointer back where it was and writes to the `d` cells
below it only (`WellNested.executesAll`, by induction on the nesting). Hence the cell of a frame is
safe while the frame is open, provided that the word inside cannot come around through all of
memory: with 256 cells, and one of them the frame's own, the word inside may be 255 deep. That is
the whole use of the bound on the depth.

`stackDiscipline` puts this together: what is popped is what was pushed, and a return goes behind
its call.
-/

namespace ByteMachine

/-- The first command opens a frame that the second one closes. -/
inductive Pairs : Command → Command → Prop where
  | pushPop {a b a' b' : Byte} (ha : a' ≠ 7) : Pairs ⟨.push, a, b⟩ ⟨.pop, a', b'⟩
  | callRet {a b a' b' : Byte} : Pairs ⟨.call, a, b⟩ ⟨.ret, a', b'⟩

/-- Pushes and pops, calls and returns are matched in the word. -/
inductive WellNested : List Command → Prop where
  | nil : WellNested []
  | neutral {w : List Command} {c : Command} (hw : WellNested w) (hc : c.IsNeutral) :
      WellNested (w ++ [c])
  | paired {w v : List Command} {c c' : Command} (hw : WellNested w) (hv : WellNested v)
      (hp : Pairs c c') : WellNested (w ++ c :: (v ++ [c']))

/-- By how much a command raises the number of open frames. -/
def Command.rise (c : Command) : Int :=
  match c.instruction with
  | .push | .call => 1
  | .pop | .ret => -1
  | _ => 0

/-- The number of frames that the word leaves open. -/
def height : List Command → Int
  | [] => 0
  | c :: w => c.rise + height w

/-- The greatest number of frames that are ever open in the word. -/
def depth : List Command → Nat
  | [] => 0
  | c :: w => (c.rise + depth w).toNat

variable {c c' : Command} {u v w : List Command}

/-! ### Height and depth -/

/-- Before the first command no frame is open. -/
theorem height_nil : height [] = 0 := rfl

/-- A command in front adds its rise. -/
theorem height_cons : height (c :: w) = c.rise + height w := rfl

/-- The frames that two words leave open are counted together. -/
theorem height_append : height (u ++ v) = height u + height v := by
  induction u with
  | nil => rw [List.nil_append, height_nil, Int.zero_add]
  | cons c u ih => rw [List.cons_append, height_cons, height_cons, ih, Int.add_assoc]

/-- **The depth of a word is the greatest height of its prefixes.** -/
theorem depth_le_iff {k : Int} : depth w ≤ k ↔ ∀ u, u <+: w → height u ≤ k := by
  -- by induction on the word, for every bound: the first command shifts the bound of the rest
  induction w generalizing k with
  | nil =>
    simp only [List.prefix_nil, forall_eq, height_nil]
    rfl
  | cons c w ih =>
    have hmax : depth (c :: w) ≤ k ↔ 0 ≤ k ∧ depth w ≤ k - c.rise := by
      rw [depth]
      omega
    rw [hmax, ih]
    refine ⟨?_, fun h => ⟨?_, fun u hu => ?_⟩⟩
    · rintro ⟨hzero, hk⟩ u hu
      obtain rfl | ⟨x, rfl, hx⟩ := List.prefix_cons_iff.mp hu
      · exact hzero
      · have hxk := hk x hx
        rw [height_cons]
        omega
    · -- the empty word is a prefix, so the bound is not negative
      exact h [] List.nil_prefix
    · have hcu := h (c :: u) ((List.prefix_cons_inj c).mpr hu)
      rw [height_cons] at hcu
      omega

/-- Nowhere in a word are more frames open than it is deep. -/
theorem height_le_depth (h : u <+: w) : height u ≤ depth w :=
  depth_le_iff.mp (Int.le_refl _) u h

/-- A part at the beginning is not deeper than the whole. -/
theorem depth_le_of_prefix (h : u <+: w) : depth u ≤ depth w := by
  have hle : (depth u : Int) ≤ depth w :=
    depth_le_iff.mpr fun v hv => height_le_depth (hv.trans h)
  omega

/-- The depth of a part counts on top of the frames that are open in front of it. -/
theorem height_add_depth_le (h : u ++ v <+: w) : height u + depth v ≤ depth w := by
  have hle : (depth v : Int) ≤ depth w - height u := by
    refine depth_le_iff.mpr fun x hx => ?_
    have hux : height (u ++ x) ≤ depth w :=
      height_le_depth (((List.prefix_append_right_inj u).mpr hx).trans h)
    rw [height_append] at hux
    omega
  omega

/-- A neutral command opens and closes nothing. -/
theorem Command.IsNeutral.rise (hc : c.IsNeutral) : c.rise = 0 := by
  obtain ⟨i, a, b⟩ := c
  cases i with
  | push | pop | call | ret => exact hc.elim
  | _ => rfl

/-- The first command of a pair opens a frame. -/
theorem Pairs.rise_open (hp : Pairs c c') : c.rise = 1 := by
  cases hp <;> rfl

/-- The second command of a pair closes one. -/
theorem Pairs.rise_close (hp : Pairs c c') : c'.rise = -1 := by
  cases hp <;> rfl

/-- A well-nested word closes all that it opens. -/
theorem WellNested.height_eq (hw : WellNested w) : height w = 0 := by
  -- one case for each way to build such a word; a pair goes one up and one down again
  induction hw with
  | nil => rfl
  | neutral hw hc ih => rw [height_append, ih, height_cons, height_nil, hc.rise]; rfl
  | paired hw hv hp ihw ihv =>
    rw [height_append, ihw, height_cons, height_append, ihv, height_cons, height_nil, hp.rise_open,
      hp.rise_close]
    rfl

/-- What holds of the prefixes of both parts holds of those of the whole. -/
theorem forall_prefix_append {p : List Command → Prop} (hu : ∀ x, x <+: u → p x)
    (hv : ∀ x, x <+: v → p (u ++ x)) : ∀ x, x <+: u ++ v → p x := by
  intro x hx
  obtain ⟨y, hy⟩ := hx
  obtain ⟨z, rfl, -⟩ | ⟨z, rfl, hz⟩ := List.append_eq_append_iff.mp hy
  · exact hu x (List.prefix_append ..)
  · exact hv z ⟨y, hz.symm⟩

/-- Nothing is closed that was not opened before. -/
theorem WellNested.height_nonneg (hw : WellNested w) : ∀ u, u <+: w → 0 ≤ height u := by
  -- by induction on the word; a prefix ends in front of the last part, or inside of it
  induction hw with
  | nil =>
    intro u hu
    rw [List.prefix_nil.mp hu]
    exact Int.le_refl 0
  | @neutral w c hw hc ih =>
    intro u hu
    obtain rfl | hu := List.prefix_concat_iff.mp hu
    · exact Int.le_of_eq (hw.neutral hc).height_eq.symm
    · exact ih u hu
  | @paired w v c c' hw hv hp ihw ihv =>
    refine forall_prefix_append ihw fun x hx => ?_
    rw [height_append, hw.height_eq, Int.zero_add]
    obtain rfl | ⟨y, rfl, hy⟩ := List.prefix_cons_iff.mp hx
    · exact Int.le_refl 0
    · rw [height_cons, hp.rise_open]
      obtain rfl | hy := List.prefix_concat_iff.mp hy
      · -- behind the closing command no frame of the pair is left
        rw [height_append, hv.height_eq, height_cons, hp.rise_close, height_nil]
        decide
      · -- inside the pair its own frame is open as well
        have hyv := ihv y hy
        omega

/-! ### Frames -/

/-- The address is among the `d` below the stack pointer. -/
def InFrames (sp : Address) (d : Nat) (x : Address) : Prop :=
  ∃ k, 1 ≤ k ∧ k ≤ d ∧ x = sp - UInt8.ofNat k

variable {sp x : Address} {d e : Nat}

/-- Among more frames there are also the first ones. -/
theorem InFrames.mono (h : InFrames sp d x) (hde : d ≤ e) : InFrames sp e x := by
  obtain ⟨k, hk, hkd, rfl⟩ := h
  exact ⟨k, hk, Nat.le_trans hkd hde, rfl⟩

/-- The cell below the stack pointer is in the first frame. -/
theorem inFrames_top (hd : 1 ≤ d) : InFrames sp d (sp - 1) :=
  ⟨1, Nat.le_refl 1, hd, rfl⟩

/-- The frames below an open one. -/
theorem InFrames.of_sub_one (h : InFrames (sp - 1) d x) : InFrames sp (d + 1) x := by
  obtain ⟨k, hk, hkd, rfl⟩ := h
  refine ⟨k + 1, by omega, by omega, ?_⟩
  rw [UInt8.ofNat_add]
  grind

/-- Fewer than 256 frames do not come around to the cell above them. -/
theorem not_inFrames_self (hd : d < 256) : ¬InFrames sp d sp := by
  rintro ⟨k, hk, hkd, hsp⟩
  -- only a multiple of 256 leads from an address back to itself
  have hzero : UInt8.ofNat k = 0 := by grind
  have hmod : k % 256 = 0 := congrArg UInt8.toNat hzero
  omega

/-! ### Executing well-nested words -/

variable {m m' : Machine}

/-- What opens a frame writes to its cell, and to no other. -/
theorem Pairs.executes_open (hp : Pairs c c') (h : m.Executes c.instruction c.a c.b m') :
    m'.sp = m.sp - 1 ∧ ∃ value, m'.memory = m.memory.write (m.sp - 1) value := by
  cases hp with
  | pushPop =>
    obtain ⟨r, -, hsp, hmemory⟩ := h.of_push
    exact ⟨hsp, _, hmemory⟩
  | callRet =>
    obtain ⟨hsp, hmemory⟩ := h.of_call
    exact ⟨hsp, _, hmemory⟩

/-- What closes a frame only moves the stack pointer up again. -/
theorem Pairs.executes_close (hp : Pairs c c') (h : m.Executes c'.instruction c'.a c'.b m') :
    m'.sp = m.sp + 1 ∧ m'.memory = m.memory := by
  cases hp with
  | pushPop ha =>
    obtain ⟨s, -, -, hsp, hmemory⟩ := h.of_pop ha
    exact ⟨hsp, hmemory⟩
  | callRet =>
    obtain ⟨-, hsp, hmemory⟩ := h.of_ret
    exact ⟨hsp, hmemory⟩

/-- A pair with a word between falls into three parts. -/
theorem executesAll_pair :
    m.ExecutesAll (c :: (v ++ [c'])) m' ↔
      ∃ m₁ m₂, m.Executes c.instruction c.a c.b m₁ ∧ m₁.ExecutesAll v m₂ ∧
        m₂.Executes c'.instruction c'.a c'.b m' := by
  rw [Machine.executesAll_cons]
  simp only [Machine.executesAll_append, Machine.executesAll_singleton, exists_and_left]

/-- **A well-nested word restores the stack pointer and writes to as many cells below it as the
word is deep.** -/
theorem WellNested.executesAll (hw : WellNested w) (h : m.ExecutesAll w m') :
    m'.sp = m.sp ∧ ∀ x, ¬InFrames m.sp (depth w) x → m'.read x = m.read x := by
  -- by induction on the word, from whatever machine it starts
  induction hw generalizing m m' with
  | nil =>
    obtain rfl := Machine.executesAll_nil.mp h
    exact ⟨rfl, fun _ _ => rfl⟩
  | @neutral w c hw hc ih =>
    obtain ⟨m₁, hw₁, hc₁⟩ := Machine.executesAll_append.mp h
    obtain ⟨hsp, hread⟩ := ih hw₁
    obtain ⟨hsp', hmemory⟩ := (Machine.executesAll_singleton.mp hc₁).of_isNeutral hc
    refine ⟨hsp'.trans hsp, fun x hx => ?_⟩
    have hle : depth w ≤ depth (w ++ [c]) := depth_le_of_prefix (List.prefix_append ..)
    have hw : m₁.read x = m.read x := hread x fun hin => hx (hin.mono hle)
    rw [← hw, Machine.read, hmemory, Machine.read]
  | @paired w v c c' hw hv hp ihw ihv =>
    obtain ⟨m₁, hw₁, hpair⟩ := Machine.executesAll_append.mp h
    obtain ⟨m₂, m₃, hc₂, hv₃, hc'⟩ := executesAll_pair.mp hpair
    obtain ⟨hsp₁, hread₁⟩ := ihw hw₁
    obtain ⟨hsp₂, value, hmemory₂⟩ := hp.executes_open hc₂
    obtain ⟨hsp₃, hread₃⟩ := ihv hv₃
    obtain ⟨hsp', hmemory'⟩ := hp.executes_close hc'
    rw [hsp₁] at hsp₂ hmemory₂
    rw [hsp₂] at hsp₃ hread₃
    refine ⟨?_, fun x hx => ?_⟩
    · -- one down, one up
      rw [hsp', hsp₃]
      grind
    -- `w` and, below the frame of the pair, `v` each fit into the depth of the whole
    have hle : depth w ≤ depth (w ++ c :: (v ++ [c'])) :=
      depth_le_of_prefix (List.prefix_append ..)
    have hlt : depth v + 1 ≤ depth (w ++ c :: (v ++ [c'])) := by
      have hadd := height_add_depth_le (u := w ++ [c]) (v := v) (w := w ++ c :: (v ++ [c']))
        ⟨[c'], by simp⟩
      rw [height_append, hw.height_eq, height_cons, hp.rise_open, height_nil] at hadd
      omega
    -- backwards from the end: the closing command does not write, `v` writes below the frame, the
    -- opening command writes to the frame, and `w` is done before
    calc m'.read x = m₃.read x := by rw [Machine.read, hmemory', Machine.read]
      _ = m₂.read x := hread₃ x fun hin => hx (hin.of_sub_one.mono hlt)
      _ = m₁.read x := by
        have hne : x ≠ m.sp - 1 := by
          rintro rfl
          exact hx (inFrames_top (by omega))
        rw [Machine.read, hmemory₂, Memory.read_write_of_ne _ _ hne, Machine.read]
      _ = m.read x := hread₁ x fun hin => hx (hin.mono hle)

/-- What is on top of the stack is still there after a word that is less than 256 deep. -/
theorem WellNested.read_top (hw : WellNested w) (hdepth : depth w < 256)
    (h : m.ExecutesAll w m') : m'.read m'.sp = m.read m.sp := by
  obtain ⟨hsp, hread⟩ := hw.executesAll h
  rw [hsp]
  exact hread m.sp (not_inFrames_self hdepth)

/-! ### Matching pairs -/

/-- In the word, behind `outer`, the command `c` opens the frame that `c'` closes. -/
structure Matched (word outer : List Command) (c : Command) (inner : List Command)
    (c' : Command) : Prop where
  pairs : Pairs c c'
  nested : WellNested inner
  part : outer ++ c :: (inner ++ [c']) <+: word

/-- Every command that closes a frame has one that opened it. -/
theorem WellNested.exists_open (hw : WellNested w) :
    ∀ x, x <+: w → ∀ u c', x = u ++ [c'] → c'.rise = -1 →
      ∃ outer c inner, u = outer ++ c :: inner ∧ Pairs c c' ∧ WellNested inner := by
  -- by induction on the word; the closing command is found in the last part, or further in front
  induction hw with
  | nil =>
    intro x hx u c' hu _
    rw [List.prefix_nil.mp hx] at hu
    exact absurd hu.symm (by simp)
  | @neutral w c hw hc ih =>
    intro x hx u c' hu hrise
    obtain rfl | hx := List.prefix_concat_iff.mp hx
    · -- a neutral command closes nothing
      obtain ⟨rfl, rfl⟩ := List.append_singleton_inj.mp hu
      rw [hc.rise] at hrise
      cases hrise
    · exact ih x hx u c' hu hrise
  | @paired w v c d hw hv hp ihw ihv =>
    refine forall_prefix_append ihw fun x hx u c' hu hrise => ?_
    obtain rfl | ⟨y, rfl, hy⟩ := List.prefix_cons_iff.mp hx
    · -- the prefix ends in front of the pair
      rw [List.append_nil] at hu
      exact ihw w List.prefix_rfl u c' hu hrise
    -- the prefix ends with `c` itself, with `d`, or inside `v`
    obtain rfl | ⟨z, e, rfl⟩ := List.eq_nil_or_concat y
    · obtain ⟨-, rfl⟩ := List.append_singleton_inj.mp hu
      rw [hp.rise_open] at hrise
      cases hrise
    rw [List.concat_eq_append] at hy hu
    have hsplit : (w ++ c :: z) ++ [e] = u ++ [c'] := by
      rw [← hu, List.append_assoc, List.cons_append]
    obtain ⟨rfl, rfl⟩ := List.append_singleton_inj.mp hsplit
    obtain heq | hz := List.prefix_concat_iff.mp hy
    · -- the closing command is the one of the pair
      obtain ⟨rfl, rfl⟩ := List.append_singleton_inj.mp heq
      exact ⟨w, c, z, rfl, hp, hv⟩
    · -- the closing command is inside the pair, and so is the one that opened its frame
      obtain ⟨outer, o, inner, rfl, hpair, hinner⟩ := ihv (z ++ [e]) hz z e rfl hrise
      exact ⟨w ++ c :: outer, o, inner, by simp, hpair, hinner⟩

/-- What the commands of the word do for each other. -/
structure StackDiscipline (m : Machine) (word : List Command) : Prop where
  /-- The stack pointer is back where it was. -/
  stackPointer : (m.afterAll word).registers.get 7 = m.registers.get 7
  /-- Only the cells below the stack pointer are written, as many as the word is deep. -/
  frames : ∀ x, ¬InFrames (m.registers.get 7) (depth word) x →
    (m.afterAll word).read x = m.read x
  /-- What closes a frame has been opened. -/
  matched : ∀ u c', u ++ [c'] <+: word → c'.instruction = .pop ∨ c'.instruction = .ret →
    ∃ outer c inner, u = outer ++ c :: inner ∧ Matched word outer c inner c'
  /-- A pop takes the value that the matching push has stored, which is the content of the pushed
  register or, for the stack pointer, its value after the decrement. -/
  popped : ∀ {outer inner : List Command} {a b a' b' : Byte},
    Matched word outer ⟨.push, a, b⟩ inner ⟨.pop, a', b'⟩ →
      ∃ (r s : Register) (value : Byte), a.toNat = r ∧ a'.toNat = s ∧
        value = (if r = 7 then (m.afterAll outer).registers.get 7 - 1
          else (m.afterAll outer).registers.get r) ∧
        (m.afterAll (outer ++ [⟨.push, a, b⟩])).read ((m.afterAll outer).registers.get 7 - 1) =
          value ∧
        (m.afterAll (outer ++ ⟨.push, a, b⟩ :: (inner ++ [⟨.pop, a', b'⟩]))).registers.get s =
          value
  /-- A return goes behind the matching call. -/
  returned : ∀ {outer inner : List Command} {a b a' b' : Byte},
    Matched word outer ⟨.call, a, b⟩ inner ⟨.ret, a', b'⟩ →
      (m.afterAll (outer ++ ⟨.call, a, b⟩ :: (inner ++ [⟨.ret, a', b'⟩]))).pc =
        (m.afterAll outer).pc + 2

section Matched

variable {outer inner : List Command}

/-- The word inside a frame is less deep than the whole word. -/
theorem Matched.depth_lt (h : Matched w outer c inner c') (hw : WellNested w) :
    depth inner < depth w := by
  have hpre : (outer ++ [c]) ++ inner <+: w := by
    refine List.IsPrefix.trans ⟨[c'], ?_⟩ h.part
    simp
  have hadd := height_add_depth_le hpre
  -- the frames that are open in front only make it deeper, and there is the one of the pair
  have houter : 0 ≤ height outer :=
    hw.height_nonneg outer ((List.prefix_append ..).trans h.part)
  rw [height_append, height_cons, height_nil, h.pairs.rise_open] at hadd
  omega

/-- Between a command that opens a frame and the one that closes it, the top of the stack is left
alone. -/
theorem Matched.executes (h : Matched w outer c inner c') (hw : WellNested w)
    (hdepth : depth w ≤ 256) (hok : (m.executeAll w).fault = none) :
    ∃ m₁ m₂ : Machine, (m.afterAll outer).Executes c.instruction c.a c.b m₁ ∧
      m.afterAll (outer ++ [c]) = m₁ ∧
      m₂.Executes c'.instruction c'.a c'.b (m.afterAll (outer ++ c :: (inner ++ [c']))) ∧
      m₂.read m₂.sp = m₁.read m₁.sp := by
  -- no command fails, so the part up to `c'` can be taken apart where the word is
  obtain ⟨rest, hrest⟩ := h.part
  have hall : m.ExecutesAll w (m.afterAll w) := ⟨hok, rfl⟩
  rw [← hrest] at hall
  obtain ⟨m₃, hpart, -⟩ := Machine.executesAll_append.mp hall
  obtain ⟨m₀, houter, hpair⟩ := Machine.executesAll_append.mp hpart
  obtain ⟨m₁, m₂, hopen, hinner, hclose⟩ := executesAll_pair.mp hpair
  have hc : m.ExecutesAll (outer ++ [c]) m₁ :=
    Machine.executesAll_append.mpr ⟨m₀, houter, Machine.executesAll_singleton.mpr hopen⟩
  -- the frame of the pair is one of the 256, so inside of it there are fewer
  have hlt : depth inner < 256 := Nat.lt_of_lt_of_le (h.depth_lt hw) hdepth
  refine ⟨m₁, m₂, ?_, hc.2, ?_, h.nested.read_top hlt hinner⟩
  · rw [houter.2]
    exact hopen
  · rw [hpart.2]
    exact hclose

end Matched

/-- **A well-nested word of depth at most 256 that is executed without a fault keeps the stack in
order.** -/
theorem stackDiscipline (hw : WellNested w) (hdepth : depth w ≤ 256)
    (hok : (m.executeAll w).fault = none) : StackDiscipline m w where
  stackPointer := (hw.executesAll ⟨hok, rfl⟩).1
  frames := (hw.executesAll ⟨hok, rfl⟩).2
  matched u c' hu hclose := by
    have hrise : c'.rise = -1 := by
      rw [Command.rise]
      obtain hpop | hret := hclose
      · rw [hpop]
      · rw [hret]
    obtain ⟨outer, c, inner, rfl, hp, hinner⟩ := hw.exists_open _ hu u c' rfl hrise
    refine ⟨outer, c, inner, rfl, hp, hinner, ?_⟩
    rw [← List.cons_append, ← List.append_assoc]
    exact hu
  popped {outer inner a b a' b'} hmatched := by
    obtain ⟨m₁, m₂, hpush, hm₁, hpop, htop⟩ := hmatched.executes hw hdepth hok
    obtain ⟨r, hr, hsp, hmemory⟩ := hpush.of_push
    -- a pop that is matched does not set the stack pointer
    have ha' : a' ≠ 7 := by
      cases hmatched.pairs with
      | pushPop ha => exact ha
    obtain ⟨s, hs, hget, -⟩ := hpop.of_pop ha'
    have hstored : m₁.read ((m.afterAll outer).sp - 1) = (m.afterAll outer).lowered r := by
      rw [Machine.read, hmemory, Memory.read_write_self]
    refine ⟨r, s, _, hr, hs, rfl, ?_, ?_⟩
    · rw [hm₁]
      exact hstored
    · -- the value is still on top where the pop takes it
      rw [hget, htop, hsp]
      exact hstored
  returned {outer inner a b a' b'} hmatched := by
    obtain ⟨m₁, m₂, hcall, -, hret, htop⟩ := hmatched.executes hw hdepth hok
    obtain ⟨hsp, hmemory⟩ := hcall.of_call
    rw [hret.of_ret.1, htop, hsp, Machine.read, hmemory, Memory.read_write_self]

/-- A call inside a push and a pop, on a stack that starts out at the last cell. -/
theorem stackDiscipline_fresh :
    let m := Machine.fresh .unlimited
    let w : List Command := [⟨.push, 7, 0⟩, ⟨.call, 1, 0⟩, ⟨.ret, 0, 0⟩, ⟨.pop, 2, 0⟩]
    WellNested w ∧ depth w ≤ 256 ∧ (m.executeAll w).fault = none ∧ StackDiscipline m w := by
  intro m w
  have hw : WellNested w := .paired .nil (.paired .nil .nil .callRet) (.pushPop (by decide))
  have hdepth : depth w ≤ 256 := by decide
  have hok : (m.executeAll w).fault = none := by decide +kernel
  exact ⟨hw, hdepth, hok, stackDiscipline hw hdepth hok⟩

end ByteMachine
