import X86OnArm.Thunks.WaylandArray

/-! # EGL attributes at host width

A guest passes EGL a list of pairs that ends at `EGL_NONE`, in elements of its own word
size. `hostAttributes` copies it into the host's elements. Guest memory is partial and
every read is recorded, so what a call returns from a list it returns whatever lies behind
the terminator, and which elements it has looked at can be told.
-/

namespace X86OnArm.Thunks

/-- The host's `EGLAttrib`. -/
abbrev EglAttrib := BitVec 64

/-- An attribute in the guest's word size. -/
abbrev GuestEglAttrib (word : SizeT) := BitVec word.bits

def eglNone (bits : Nat) : BitVec bits := BitVec.ofNat bits 0x3038

/-- The conversion to `EGLAttrib`, which keeps the signed value. -/
def widen {word : SizeT} (data : GuestEglAttrib word) : EglAttrib := data.signExtend 64

/-- `sizeof` a guest attribute. -/
def elementSize (word : SizeT) : Nat := word.bits / 8

/-- Why a call has no result: an address that cannot be read, or a loop that has not ended. -/
inductive Stopped where
  | fault (address : Nat)
  | looping

/-- A computation over guest memory, with the addresses it has read. -/
abbrev Access := StateT (List Nat) (Except Stopped)

section Code

variable {word : SizeT} (load : Nat → Option (GuestEglAttrib word))

def readElement (address : Nat) : Access (GuestEglAttrib word) := do
  modify (· ++ [address])
  match load address with
  | none => throw (.fault address)
  | some data => return data

/-- The loop of `HostAttributes`. -/
def copyPairs : Nat → Nat → List EglAttrib → Access (List EglAttrib)
  | 0, _, _ => throw .looping
  | fuel + 1, value, result => do
      if (← readElement load value) ≠ eglNone word.bits then
        let result := result ++ [widen (← readElement load value)]
        let value := value + elementSize word
        let result := result ++ [widen (← readElement load value)]
        let value := value + elementSize word
        copyPairs fuel value result
      else return result ++ [eglNone 64]

/-- `HostAttributes`; a guest's null pointer is the address 0. -/
def hostAttributes (fuel attributes : Nat) : Access (List EglAttrib) :=
  if attributes ≠ 0 then copyPairs load fuel attributes [] else return []

variable {Pointer : Type}

/-- Call the host with `native.empty() ? nullptr : native.data()`. -/
def withHostAttributes (fuel attributes : Nat) (host : Option (List EglAttrib) → Pointer) :
    Access Pointer := do
  let native ← hostAttributes load fuel attributes
  return host (if native.isEmpty then none else some native)

/-- The host's functions that take a list of attributes. -/
structure HostEgl (Pointer : Type) where
  createSync (display : Pointer) (type : BitVec 32) (attributes : Option (List EglAttrib)) : Pointer
  createImage (display context : Pointer) (target : BitVec 32) (buffer : Pointer)
    (attributes : Option (List EglAttrib)) : Pointer
  getPlatformDisplay (platform : BitVec 32) (display : Pointer)
    (attributes : Option (List EglAttrib)) : Pointer
  createPlatformWindowSurface (display config window : Pointer)
    (attributes : Option (List EglAttrib)) : Pointer
  createPlatformPixmapSurface (display config pixmap : Pointer)
    (attributes : Option (List EglAttrib)) : Pointer

variable (host : HostEgl Pointer) (fuel : Nat)

def eglCreateSync (display : Pointer) (type : BitVec 32) (attributes : Nat) : Access Pointer :=
  withHostAttributes load fuel attributes (host.createSync display type)

def eglCreateImage (display context : Pointer) (target : BitVec 32) (buffer : Pointer)
    (attributes : Nat) : Access Pointer :=
  withHostAttributes load fuel attributes (host.createImage display context target buffer)

def eglGetPlatformDisplay (platform : BitVec 32) (display : Pointer) (attributes : Nat) :
    Access Pointer :=
  withHostAttributes load fuel attributes (host.getPlatformDisplay platform display)

def eglCreatePlatformWindowSurface (display config window : Pointer) (attributes : Nat) :
    Access Pointer :=
  withHostAttributes load fuel attributes (host.createPlatformWindowSurface display config window)

def eglCreatePlatformPixmapSurface (display config pixmap : Pointer) (attributes : Nat) :
    Access Pointer :=
  withHostAttributes load fuel attributes (host.createPlatformPixmapSurface display config pixmap)

end Code

section Lists

variable {word : SizeT}

/-- The elements of a list of pairs, without the terminator. -/
def elements (pairs : List (GuestEglAttrib word × GuestEglAttrib word)) :
    List (GuestEglAttrib word) :=
  pairs.flatMap fun pair => [pair.1, pair.2]

/-- Memory holds elements from an address on. -/
def Holds (load : Nat → Option (GuestEglAttrib word)) (address : Nat)
    (data : List (GuestEglAttrib word)) : Prop :=
  ∀ index (inside : index < data.length),
    load (address + index * elementSize word) = some data[index]

/-- A guest's list of attributes: pairs whose keys are not `EGL_NONE`, and `EGL_NONE`. -/
structure AttributeList (load : Nat → Option (GuestEglAttrib word)) (address : Nat)
    (pairs : List (GuestEglAttrib word × GuestEglAttrib word)) : Prop where
  present : address ≠ 0
  keys : ∀ pair ∈ pairs, pair.1 ≠ eglNone word.bits
  held : Holds load address (elements pairs ++ [eglNone word.bits])

/-- The list at host width. -/
def widened (pairs : List (GuestEglAttrib word × GuestEglAttrib word)) : List EglAttrib :=
  (elements pairs).map widen ++ [eglNone 64]

/-- A caller hands its list on to the host: none for a null pointer, and otherwise the
list at host width. -/
structure HandsOn {Pointer : Type} (load : Nat → Option (GuestEglAttrib word))
    (caller : Nat → Nat → Access Pointer) (host : Option (List EglAttrib) → Pointer) : Prop where
  null : ∀ fuel reads, (caller fuel 0).run reads = .ok (host none, reads)
  list : ∀ address pairs, AttributeList load address pairs → ∀ fuel, pairs.length < fuel →
    ∃ reads, (caller fuel address).run [] = .ok (host (some (widened pairs)), reads)

theorem Holds.tail {load : Nat → Option (GuestEglAttrib word)} {address : Nat}
    {first : GuestEglAttrib word} {rest : List (GuestEglAttrib word)}
    (held : Holds load address (first :: rest)) :
    Holds load (address + elementSize word) rest := by
  intro index inside
  have next := held (index + 1) (Nat.succ_lt_succ inside)
  rw [Nat.succ_mul, Nat.add_comm (index * _), ← Nat.add_assoc] at next
  exact next

theorem Holds.head {load : Nat → Option (GuestEglAttrib word)} {address : Nat}
    {first : GuestEglAttrib word} {rest : List (GuestEglAttrib word)}
    (held : Holds load address (first :: rest)) : load address = some first := by
  have start := held 0 (Nat.zero_lt_succ _)
  rw [Nat.zero_mul, Nat.add_zero] at start
  exact start

theorem run_bind {α β : Type} {first : Access α} {next : α → Access β} {value : α}
    {reads reads' : List Nat} (ran : first.run reads = .ok (value, reads')) :
    (first >>= next).run reads = (next value).run reads' := by
  rw [StateT.run_bind, ran]
  rfl

theorem run_readElement {load : Nat → Option (GuestEglAttrib word)} {address : Nat}
    {data : GuestEglAttrib word} (held : load address = some data) (reads : List Nat) :
    (readElement load address).run reads = .ok (data, reads ++ [address]) := by
  unfold readElement
  simp only [held, StateT.run_bind, StateT.run_modify, StateT.run_pure]
  rfl

/-- The keys and values up to the terminator are read, in order, and nothing behind it.
The induction is on the pairs, each of which is one round of the loop. -/
theorem run_copyPairs {load : Nat → Option (GuestEglAttrib word)}
    (pairs : List (GuestEglAttrib word × GuestEglAttrib word)) (value : Nat)
    (keys : ∀ pair ∈ pairs, pair.1 ≠ eglNone word.bits)
    (held : Holds load value (elements pairs ++ [eglNone word.bits])) (fuel : Nat)
    (enough : pairs.length < fuel) (result : List EglAttrib) (reads : List Nat) :
    ∃ reads', (copyPairs load fuel value result).run reads =
        .ok (result ++ widened pairs, reads ++ reads') ∧
      ∀ address ∈ reads', ∃ index ≤ 2 * pairs.length,
        address = value + index * elementSize word := by
  induction pairs generalizing value fuel result reads with
  | nil =>
      obtain ⟨fuel, rfl⟩ := Nat.exists_eq_succ_of_ne_zero (Nat.ne_of_gt enough)
      refine ⟨[value], ?_, ?_⟩
      · unfold copyPairs
        rw [run_bind (run_readElement held.head reads), if_neg (not_not_intro rfl)]
        rfl
      · intro address member
        exact ⟨0, Nat.le_refl 0, by rw [List.mem_singleton.mp member, Nat.zero_mul, Nat.add_zero]⟩
  | cons pair pairs hypothesis =>
      obtain ⟨fuel, rfl⟩ := Nat.exists_eq_succ_of_ne_zero (Nat.ne_of_gt (Nat.zero_lt_of_lt enough))
      have key : pair.1 ≠ eglNone word.bits := keys pair List.mem_cons_self
      have second := held.tail
      have rest := second.tail
      obtain ⟨reads', copied, within⟩ := hypothesis
        (value + elementSize word + elementSize word)
        (fun other later => keys other (List.mem_cons_of_mem _ later)) rest fuel
        (Nat.lt_of_succ_lt_succ enough) (result ++ [widen pair.1] ++ [widen pair.2])
        (reads ++ [value] ++ [value] ++ [value + elementSize word])
      refine ⟨[value, value, value + elementSize word] ++ reads', ?_, ?_⟩
      · unfold copyPairs
        rw [run_bind (run_readElement held.head reads), if_pos key,
          run_bind (run_readElement held.head _), run_bind (run_readElement second.head _),
          copied]
        simp only [List.append_assoc]
        rfl
      · intro address member
        rw [List.length_cons]
        rcases List.mem_append.mp member with now | later
        · have which : address = value ∨ address = value + elementSize word := by
            simpa using now
          rcases which with rfl | rfl
          · exact ⟨0, Nat.zero_le _, by rw [Nat.zero_mul, Nat.add_zero]⟩
          · exact ⟨1, by omega, by rw [Nat.one_mul]⟩
        · obtain ⟨index, bound, rfl⟩ := within address later
          refine ⟨index + 2, by omega, ?_⟩
          rw [Nat.add_mul]
          omega

section Calls

variable {load : Nat → Option (GuestEglAttrib word)} {address : Nat}
  {pairs : List (GuestEglAttrib word × GuestEglAttrib word)}

theorem run_hostAttributes (list : AttributeList load address pairs) {fuel : Nat}
    (enough : pairs.length < fuel) :
    ∃ reads, (hostAttributes load fuel address).run [] = .ok (widened pairs, reads) ∧
      ∀ read ∈ reads, ∃ index ≤ 2 * pairs.length,
        read = address + index * elementSize word := by
  unfold hostAttributes
  rw [if_pos list.present]
  exact run_copyPairs pairs address list.keys list.held fuel enough [] []

/-- Host width keeps the signed value of every element. -/
theorem toInt_widened : (widened pairs).map BitVec.toInt =
    (elements pairs).map BitVec.toInt ++ [0x3038] := by
  unfold widened
  rw [List.map_append, List.map_map]
  congr 1
  apply List.map_congr_left
  intro data _
  cases word with
  | bits32 => exact BitVec.toInt_signExtend_of_le (by decide)
  | bits64 => exact BitVec.toInt_signExtend_of_le (by decide)

/-- Every list, an empty one too, is a vector with an element. -/
theorem isEmpty_widened : (widened pairs).isEmpty = false := by
  unfold widened
  rw [List.isEmpty_eq_false_iff]
  exact List.append_ne_nil_of_right_ne_nil _ (List.cons_ne_nil _ _)

theorem handsOn_withHostAttributes {Pointer : Type} (load : Nat → Option (GuestEglAttrib word))
    (host : Option (List EglAttrib) → Pointer) :
    HandsOn load (fun fuel attributes => withHostAttributes load fuel attributes host) host where
  null _ _ := rfl
  list address pairs list fuel enough := by
    obtain ⟨reads, returned, -⟩ := run_hostAttributes list enough
    refine ⟨reads, ?_⟩
    unfold withHostAttributes
    rw [run_bind returned, isEmpty_widened]
    rfl

end Calls

end Lists

/-- **EGL attributes keep their values.** From every list of pairs, and whatever memory
holds behind its terminator, `HostAttributes` ends with the same pairs at host width and
one `EGL_NONE`, and has read up to the terminator only; each caller hands on a null pointer
for a null pointer and the list for a list. -/
theorem hostAttributes_widens {word : SizeT} (load : Nat → Option (GuestEglAttrib word))
    {Pointer : Type} (host : HostEgl Pointer) :
    (∀ address pairs, AttributeList load address pairs →
      (∀ fuel, pairs.length < fuel → ∃ reads,
        (hostAttributes load fuel address).run [] = .ok (widened pairs, reads) ∧
        ∀ read ∈ reads, ∃ index ≤ 2 * pairs.length,
          read = address + index * elementSize word) ∧
      (widened pairs).map BitVec.toInt = (elements pairs).map BitVec.toInt ++ [0x3038]) ∧
    (∀ display type, HandsOn load
      (fun fuel => eglCreateSync load host fuel display type) (host.createSync display type)) ∧
    (∀ display context target buffer, HandsOn load
      (fun fuel => eglCreateImage load host fuel display context target buffer)
      (host.createImage display context target buffer)) ∧
    (∀ platform display, HandsOn load
      (fun fuel => eglGetPlatformDisplay load host fuel platform display)
      (host.getPlatformDisplay platform display)) ∧
    (∀ display config window, HandsOn load
      (fun fuel => eglCreatePlatformWindowSurface load host fuel display config window)
      (host.createPlatformWindowSurface display config window)) ∧
    (∀ display config pixmap, HandsOn load
      (fun fuel => eglCreatePlatformPixmapSurface load host fuel display config pixmap)
      (host.createPlatformPixmapSurface display config pixmap)) := by
  refine ⟨?_, ?_, ?_, ?_, ?_, ?_⟩
  · intro address pairs list
    exact ⟨fun fuel enough => run_hostAttributes list enough, toInt_widened⟩
  · exact fun display type => handsOn_withHostAttributes load _
  · exact fun display context target buffer => handsOn_withHostAttributes load _
  · exact fun platform display => handsOn_withHostAttributes load _
  · exact fun display config window => handsOn_withHostAttributes load _
  · exact fun display config pixmap => handsOn_withHostAttributes load _

/-- A list of a 32-bit guest: a value is `EGL_NONE`, another one is negative. -/
def signedPairs : List (GuestEglAttrib .bits32 × GuestEglAttrib .bits32) :=
  [(0x30D2#32, 0x3038#32), (0x3080#32, -1#32)]

/-- Memory with that list at the address 4096, and nothing else. -/
def signedMemory (address : Nat) : Option (GuestEglAttrib .bits32) :=
  if 4096 ≤ address ∧ address % 4 = 0 then
    (elements signedPairs ++ [eglNone SizeT.bits32.bits])[(address - 4096) / 4]?
  else none

theorem hostAttributes_widens_signed :
    ∃ reads, (hostAttributes signedMemory 3 4096).run [] = .ok (widened signedPairs, reads) ∧
      (∀ read ∈ reads, ∃ index ≤ 4, read = 4096 + index * 4) ∧
      (widened signedPairs).map BitVec.toInt = [0x30D2, 0x3038, 0x3080, -1, 0x3038] := by
  have keys : ∀ pair ∈ signedPairs, pair.1 ≠ eglNone SizeT.bits32.bits := by
    unfold signedPairs
    rw [List.forall_mem_cons, List.forall_mem_singleton]
    exact ⟨by decide, by decide⟩
  have list : AttributeList signedMemory 4096 signedPairs :=
    ⟨by decide, keys, by unfold Holds; decide +kernel⟩
  have host : HostEgl Unit := ⟨fun _ _ _ => (), fun _ _ _ _ _ => (), fun _ _ _ => (),
    fun _ _ _ _ => (), fun _ _ _ _ => ()⟩
  obtain ⟨returned, values⟩ := (hostAttributes_widens signedMemory host).1 4096 signedPairs list
  obtain ⟨reads, ran, within⟩ := returned 3 (by decide)
  exact ⟨reads, ran, within, values⟩

end X86OnArm.Thunks
