import ChipEight.Proofs.Machine.KeyWait
import ChipEight.Request

/-!
Requests that write one part of the machine: a program into memory, one key or all keys.
Either such a request is refused, by its arguments and the files alone, and then the host
is the one that it was. Or it is done, and then it wrote what it names and nothing else;
the log is told of programs. A short program that is loaded over a longer one leaves the
end of that one where it was.
-/

namespace ChipEight

namespace Program

def number (b : UInt8) : Int := b.toNat

theorem byteOfNumber_number (b : UInt8) : byteOfNumber (number b) = .ok b := by
  have hb : b.toNat < 256 := b.toNat_lt
  have hrange : 0 ≤ number b ∧ number b ≤ 255 := by
    unfold number
    omega
  rw [byteOfNumber, if_pos hrange, number, Int.toNat_natCast, UInt8.ofNat_toNat]

theorem exists_number {i : Int} (h : 0 ≤ i ∧ i ≤ 255) : ∃ b, number b = i := by
  refine ⟨UInt8.ofNat i.toNat, ?_⟩
  rw [number, UInt8.toNat_ofNat']
  omega

/-- Numbers are bytes, or the first of them that is none is refused. -/
theorem mapM_byteOfNumber (numbers : List Int) :
    (∃ bytes : List UInt8, numbers = bytes.map number ∧
        numbers.mapM byteOfNumber = .ok bytes) ∨
      ∃ i ∈ numbers, (i < 0 ∨ 255 < i) ∧
        numbers.mapM byteOfNumber = .error (.byteOutOfRange i) := by
  induction numbers with
  | nil => exact .inl ⟨[], rfl, rfl⟩
  | cons i rest ih =>
    by_cases hi : 0 ≤ i ∧ i ≤ 255
    case pos =>
      obtain ⟨b, rfl⟩ := exists_number hi
      obtain ⟨bytes, hnumbers, hbytes⟩ | ⟨j, hj, hrange, hfault⟩ := ih
      · refine .inl ⟨b :: bytes, by rw [List.map_cons, hnumbers], ?_⟩
        rw [List.mapM_cons, byteOfNumber_number, hbytes]
        rfl
      · refine .inr ⟨j, List.mem_cons_of_mem _ hj, hrange, ?_⟩
        rw [List.mapM_cons, byteOfNumber_number, hfault]
        rfl
    case neg =>
      refine .inr ⟨i, List.mem_cons_self, by omega, ?_⟩
      rw [List.mapM_cons, byteOfNumber, if_neg hi]
      rfl

/-- A memory with bytes from the origin of programs on that is as before around them. -/
def Installed (bytes : List UInt8) (before after : Memory) : Prop :=
  (∀ i b, bytes[i]? = some b → after.read (0x200 + i) = b) ∧
    ∀ a, a < 4096 → a < 0x200 ∨ 0x200 + bytes.length ≤ a → after.read a = before.read a

theorem installed_install (p : Program) (m : Memory) : Installed p.bytes m (p.install m) := by
  have hfits : p.bytes.length ≤ 3584 := p.fits
  have hread (a : Nat) := m.read_writeBytes origin a p.bytes (by omega)
  have horigin : 4096 - origin % 4096 = 3584 := rfl
  constructor
  · intro i b hb
    obtain ⟨hi, -⟩ := List.getElem?_eq_some_iff.1 hb
    have hplace : (0x200 + i + 3584) % 4096 = i := by omega
    rw [install, hread, horigin, hplace, hb]
    rfl
  · intro a ha hout
    have hplace : p.bytes.length ≤ (a + 3584) % 4096 := by omega
    rw [install, hread, horigin, List.getElem?_eq_none hplace]
    rfl

end Program

namespace Request

def writes : Request → Bool
  | .load _ _ | .loadFile _ | .press _ | .release _ | .setKeys _ => true
  | _ => false

def Refused (files : Files) : Request → Prop
  | .load _ numbers => 3584 < numbers.length ∨ ∃ i ∈ numbers, i < 0 ∨ 255 < i
  | .loadFile name => (∃ fault, files.read name = .error fault) ∨
      ∃ bytes, files.read name = .ok bytes ∧ 3584 < bytes.length
  | .press key | .release key => key < 0 ∨ 15 < key
  | .setKeys flags => flags.length ≠ 16
  | _ => False

end Request

namespace Host

variable (files : Files) (h : Host)

def Loaded (source : String) (bytes : List UInt8) (after : Host) : Prop :=
  ∃ memory, Program.Installed bytes h.machine.memory memory ∧ after = { h with
    machine := { h.machine with memory := memory }
    journal := h.journal.tell (.loaded source bytes.length) }

def KeySet (key : Int) (pressed : Bool) (after : Host) : Prop :=
  ∃ keypad : Keypad, after = { h with machine := { h.machine with keypad := keypad } } ∧
    ∀ k : Fin 16, keypad.isPressed k =
      if (k.val : Int) = key then pressed else h.machine.keypad.isPressed k

def Wrote (r : Request) (after : Host) : Prop :=
  match r with
  | .load source numbers => ∃ bytes : List UInt8, numbers = bytes.map Program.number ∧
      h.Loaded source bytes after
  | .loadFile name => ∃ bytes, files.read name = .ok bytes ∧ h.Loaded name bytes after
  | .press key => h.KeySet key true after
  | .release key => h.KeySet key false after
  | .setKeys flags => ∃ keypad : Keypad,
      after = { h with machine := { h.machine with keypad := keypad } } ∧
        ∀ k : Fin 16, flags[k.val]? = some (keypad.isPressed k)
  | _ => True

/-- Whether a request is refused without a trace or else done as a whole. -/
def Atomic (r : Request) : Prop :=
  (r.Refused files ∧ ∃ fault, h.serve files r = (h, .error fault)) ∨
    ¬ r.Refused files ∧ ∃ after, h.serve files r = (after, .ok .done) ∧ h.Wrote files r after

theorem loaded_load (source : String) {bytes : List UInt8}
    (hfits : bytes.length ≤ Program.capacity) :
    h.Loaded source bytes (h.load source ⟨bytes, hfits⟩) :=
  ⟨_, Program.installed_install ⟨bytes, hfits⟩ h.machine.memory, rfl⟩

theorem serve_load_of_tooLarge (source : String) {numbers : List Int}
    (hlarge : 3584 < numbers.length) : h.serve files (.load source numbers) =
      (h, .error (.programTooLarge numbers.length 3584)) := by
  have hsize : ¬ numbers.length ≤ Program.capacity := Nat.not_le.2 hlarge
  rw [serve, Program.ofNumbers, if_neg hsize]
  rfl

theorem atomic_load (source : String) (numbers : List Int) :
    h.Atomic files (.load source numbers) := by
  by_cases hlarge : 3584 < numbers.length
  case pos =>
    exact .inl ⟨.inl hlarge, _, h.serve_load_of_tooLarge files source hlarge⟩
  case neg =>
    have hsize : numbers.length ≤ Program.capacity := Nat.not_lt.1 hlarge
    obtain ⟨bytes, hnumbers, hbytes⟩ | ⟨i, hi, hrange, hfault⟩ := Program.mapM_byteOfNumber numbers
    · have hfits : bytes.length ≤ Program.capacity := by
        rw [hnumbers, List.length_map] at hsize
        exact hsize
      have hprogram : Program.ofNumbers numbers = .ok ⟨bytes, hfits⟩ := by
        rw [Program.ofNumbers, if_pos hsize, hbytes]
        exact dif_pos hfits
      refine .inr ⟨?_, h.load source ⟨bytes, hfits⟩, ?_, bytes, hnumbers,
        h.loaded_load source hfits⟩
      · rintro (hlarge' | ⟨i, hi, hrange⟩)
        · exact hlarge hlarge'
        · rw [hnumbers] at hi
          obtain ⟨b, -, rfl⟩ := List.mem_map.1 hi
          have hb : b.toNat < 256 := b.toNat_lt
          unfold Program.number at hrange
          omega
      · rw [serve, hprogram]
    · refine .inl ⟨.inr ⟨i, hi, hrange⟩, .byteOutOfRange i, ?_⟩
      rw [serve, Program.ofNumbers, if_pos hsize, hfault]

theorem atomic_loadFile (name : String) : h.Atomic files (.loadFile name) := by
  cases hread : files.read name with
  | error fault =>
    refine .inl ⟨.inl ⟨fault, hread⟩, fault, ?_⟩
    rw [serve, loadFile, Files.program, hread]
    rfl
  | ok bytes =>
    by_cases hfits : bytes.length ≤ Program.capacity
    case pos =>
      refine .inr ⟨?_, h.load name ⟨bytes, hfits⟩, ?_, bytes, hread, h.loaded_load name hfits⟩
      · rintro (⟨fault, hfault⟩ | ⟨others, hothers, hlarge⟩)
        · rw [hread] at hfault
          cases hfault
        · rw [hread] at hothers
          cases hothers
          exact absurd hfits (Nat.not_le.2 hlarge)
      · rw [serve, loadFile, Files.program, hread]
        simp only [Program.ofBytes, dif_pos hfits]
        rfl
    case neg =>
      refine .inl ⟨.inr ⟨bytes, hread, Nat.not_le.1 hfits⟩,
        .programTooLarge bytes.length Program.capacity, ?_⟩
      rw [serve, loadFile, Files.program, hread]
      simp only [Program.ofBytes, dif_neg hfits]
      rfl

/-- A key is set exactly if it is one of the sixteen. -/
theorem setKey_cases (key : Int) (pressed : Bool) :
    ((key < 0 ∨ 15 < key) ∧ h.setKey key pressed = (h, .error (.keyOutOfRange key))) ∨
      ¬ (key < 0 ∨ 15 < key) ∧ ∃ after, h.setKey key pressed = (after, .ok ()) ∧
        h.KeySet key pressed after := by
  by_cases hkey : 0 ≤ key ∧ key < 16
  case pos =>
    have hof : Keypad.keyOf key = .ok (Fin.ofNat 16 key.toNat) := if_pos hkey
    have hsame (k : Fin 16) : k = Fin.ofNat 16 key.toNat ↔ (k.val : Int) = key := by
      rw [Fin.ext_iff, Fin.val_ofNat]
      omega
    refine .inr ⟨by omega, { h with machine :=
      { h.machine with keypad := h.machine.keypad.put (Fin.ofNat 16 key.toNat) pressed } }, ?_,
      _, rfl, ?_⟩
    · rw [setKey, Machine.setKey, hof]
      rfl
    · intro k
      rw [Keypad.isPressed_put, if_congr (hsame k) rfl rfl]
  case neg =>
    refine .inl ⟨by omega, ?_⟩
    rw [setKey, Machine.setKey, Keypad.keyOf, if_neg hkey]
    rfl

theorem atomic_setKeys (flags : List Bool) : h.Atomic files (.setKeys flags) := by
  by_cases hlength : flags.length = 16
  case pos =>
    obtain ⟨keypad, hkeypad⟩ := Keypad.exists_ofFlags_eq_ok hlength
    refine .inr ⟨not_not_intro hlength,
      { h with machine := { h.machine with keypad := keypad } }, ?_, keypad, rfl,
      Keypad.getElem?_of_ofFlags hkeypad⟩
    rw [serve, setKeys, Machine.setKeys, hkeypad]
    rfl
  case neg =>
    refine .inl ⟨hlength, .keyCount flags.length, ?_⟩
    rw [serve, setKeys, Machine.setKeys, Keypad.ofFlags, dif_neg hlength]
    rfl

theorem atomic_of_setKey {r : Request} {key : Int} {pressed : Bool}
    (hserve : h.serve files r = (h.setKey key pressed).mapResult fun _ => .done)
    (hrefused : r.Refused files ↔ key < 0 ∨ 15 < key)
    (hwrote : ∀ after, h.KeySet key pressed after → h.Wrote files r after) : h.Atomic files r := by
  obtain ⟨hkey, hset⟩ | ⟨hkey, after, hset, hdone⟩ := h.setKey_cases key pressed
  · exact .inl ⟨hrefused.2 hkey, _, by rw [hserve, hset]; rfl⟩
  · exact .inr ⟨hrefused.not.2 hkey, after, by rw [hserve, hset]; rfl, hwrote after hdone⟩

theorem atomic_of_writes {r : Request} (hr : r.writes = true) : h.Atomic files r := by
  cases r with
  | load source numbers => exact h.atomic_load files source numbers
  | loadFile name => exact h.atomic_loadFile files name
  | press key | release key =>
    exact h.atomic_of_setKey files rfl Iff.rfl fun _ hafter => hafter
  | setKeys flags => exact h.atomic_setKeys files flags
  | reset | step | run | tick | consume | peek | view => cases hr

end Host

end ChipEight
