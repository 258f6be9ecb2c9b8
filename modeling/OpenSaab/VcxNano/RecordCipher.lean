import OpenSaab.Library.Bytes
import OpenSaab.Library.Runs
import OpenSaab.Library.Words

/-!
# Sealed records

`adapters/vcx_nano/init_handshake.rs`: the cipher of a session, and the records that it seals. An index
that is outside ends the program, which is `none` here.
-/

namespace OpenSaab.VcxNano

open Bytes Runs

/-! ## The cipher -/

def delta : UInt32 := 0x9e3779b9

/-- The four bytes of a word, the lowest first. -/
def wordBytes (w : UInt32) : List UInt8 := Words.little 4 w.toNat

def ofWordBytes (bytes : List UInt8) : UInt32 := UInt32.ofNat (Words.ofLittle bytes)

/-- `chunks_exact(4)`. -/
def wordsOf : List UInt8 → List UInt32
  | a :: b :: c :: d :: rest => ofWordBytes [a, b, c, d] :: wordsOf rest
  | _ => []

def keyWords (keyBytes : Vector UInt8 16) : Option (List UInt32) :=
  (List.range 4).mapM fun i => (part keyBytes.toList (i * 4) (i * 4 + 4)).map ofWordBytes

def mix (z y sum : UInt32) (key : List UInt32) (index selector : Nat) : Option UInt32 := do
  let k ← key[(index &&& 3) ^^^ selector]?
  some ((((z >>> 5) ^^^ (y <<< 2)) + ((y >>> 3) ^^^ (z <<< 4))) ^^^ ((y ^^^ sum) + (z ^^^ k)))

def selector (sum : UInt32) : Nat := ((sum >>> 2) &&& 3).toNat

/-- The word at `i` is encrypted between the one before it, which is carried along, and the one at
`next`. -/
def encryptAt (key : List UInt32) (sum : UInt32) (i next : Nat) (s : List UInt32 × UInt32) :
    Option (List UInt32 × UInt32) := do
  let y ← s.1[next]?
  let w ← s.1[i]?
  let w := w + (← mix s.2 y sum key i (selector sum))
  some (s.1.set i w, w)

def encryptRound (key : List UInt32) (sum : UInt32) (s : List UInt32 × UInt32) :
    Option (List UInt32 × UInt32) := do
  let n := s.1.length
  let s ← (List.range (n - 1)).foldlM (fun s i => encryptAt key sum i (i + 1) s) s
  encryptAt key sum (n - 1) 0 s

def encryptRounds (key : List UInt32) : Nat → UInt32 → List UInt32 × UInt32 → Option (List UInt32)
  | 0, _, s => some s.1
  | k + 1, sum, s => do
    let s ← encryptRound key (sum + delta) s
    encryptRounds key k (sum + delta) s

/-- The word at `i` is decrypted between the one at `previous` and the one behind it, which is carried
along. -/
def decryptAt (key : List UInt32) (sum : UInt32) (i previous : Nat) (s : List UInt32 × UInt32) :
    Option (List UInt32 × UInt32) := do
  let z ← s.1[previous]?
  let w ← s.1[i]?
  let w := w - (← mix z s.2 sum key i (selector sum))
  some (s.1.set i w, w)

def decryptRound (key : List UInt32) (sum : UInt32) (s : List UInt32 × UInt32) :
    Option (List UInt32 × UInt32) := do
  let n := s.1.length
  let s ← (List.range' 1 (n - 1)).reverse.foldlM (fun s i => decryptAt key sum i (i - 1) s) s
  decryptAt key sum 0 (n - 1) s

/-- `delta` is odd, and has an inverse. -/
def deltaInverse : UInt32 := 0x144cbc89

theorem delta_inverse : delta * deltaInverse = 1 := by decide

theorem sum_lt {sum : UInt32} (h : sum ≠ 0) :
    ((sum - delta) * deltaInverse).toNat < (sum * deltaInverse).toNat := by
  have hstep : (sum - delta) * deltaInverse = sum * deltaInverse - 1 := by
    rw [UInt32.sub_mul, delta_inverse]
  have hne : sum * deltaInverse ≠ 0 := by
    intro hzero
    have hback : sum * deltaInverse * delta = sum := by
      rw [UInt32.mul_assoc, UInt32.mul_comm deltaInverse, delta_inverse, UInt32.mul_one]
    rw [hzero, UInt32.zero_mul] at hback
    exact h hback.symm
  have hpos : (sum * deltaInverse).toNat ≠ 0 := fun hzero => hne (UInt32.toNat_inj.mp hzero)
  have hone : (1 : UInt32) ≤ sum * deltaInverse := by
    rw [UInt32.le_iff_toNat_le]
    change 1 ≤ _
    omega
  rw [hstep, UInt32.toNat_sub_of_le _ _ hone]
  change _ - 1 < _
  omega

/-- The loop ends with the sum. It counts its rounds. -/
def decryptRounds (key : List UInt32) (sum : UInt32) (s : List UInt32 × UInt32) :
    Option (Nat × List UInt32) :=
  if _ : sum = 0 then some (0, s.1)
  else do
    let s ← decryptRound key sum s
    let (rounds, words) ← decryptRounds key (sum - delta) s
    some (rounds + 1, words)
termination_by (sum * deltaInverse).toNat
decreasing_by exact sum_lt ‹_›

/-- The words are written back one after the other. -/
def store (data : List UInt8) : Nat → List UInt32 → Option (List UInt8)
  | _, [] => some data
  | i, w :: words =>
    if i * 4 + 4 ≤ data.length then store (Bytes.overwrite data (i * 4) (wordBytes w)) (i + 1) words
    else none

def roundsOf (n : Nat) : Nat := 64 + 52 / n

def encryptWords (key words : List UInt32) : Option (List UInt32) := do
  let z ← words[words.length - 1]?
  encryptRounds key (roundsOf words.length) 0 (words, z)

def decryptWords (key words : List UInt32) : Option (List UInt32) := do
  let y ← words[0]?
  (decryptRounds key (UInt32.ofNat (roundsOf words.length) * delta) (words, y)).map Prod.snd

def cryptWords (key words : List UInt32) (decrypt : Bool) : Option (List UInt32) :=
  if decrypt then decryptWords key words else encryptWords key words

def crypt (data : List UInt8) (keyBytes : Vector UInt8 16) (decrypt : Bool) :
    Option (Except String (List UInt8)) :=
  if data.length < 8 ∨ 160 < data.length ∨ data.length % 4 ≠ 0 then
    some (.error "Invalid corrected XXTEA outer size")
  else do
    let words := wordsOf data
    let key ← keyWords keyBytes
    let words ← cryptWords key words decrypt
    (store data 0 words).map .ok

/-! ## Records -/

def marker : UInt32 := 0xa567a567

structure Trailer where
  filetime : UInt64
  ticks : UInt32
  deriving DecidableEq, Repr

def token : List UInt8 := "PASSTHRU".toList.map fun c => UInt8.ofNat c.toNat

def sealRecord (plain : List UInt8) (key : Vector UInt8 16) (time : Trailer) :
    Option (Except String (List UInt8)) :=
  crypt (plain ++ wordBytes marker ++ Words.little 8 time.filetime.toNat ++ wordBytes time.ticks)
    key false

def openRecord (cipher : List UInt8) (key : Vector UInt8 16) : Option (Except String (List UInt8)) :=
  if cipher.length ≠ 32 then some (.error "PASSTHRU reply sealed width differs")
  else do
    match ← crypt cipher key true with
    | .error e => some (.error e)
    | .ok data =>
      if (← part data 16 20) ≠ wordBytes marker then
        some (.error "PASSTHRU reply trailer marker invalid")
      else if (← part data 0 8) ≠ token then some (.error "PASSTHRU reply token differs")
      else (part data 0 16).map .ok

/-! ## One word -/

variable {key : List UInt32} {sum : UInt32} {words : List UInt32} {n i j : Nat}

/-- The place before `i`, and the one behind it, in a ring of `n`. -/
def before (n i : Nat) : Nat := (i + n - 1) % n

def behind (n i : Nat) : Nat := (i + 1) % n

theorem before_ne (hn : 2 ≤ n) (hi : i < n) : before n i ≠ i := by
  unfold before
  rcases Nat.eq_zero_or_pos i with rfl | hpos
  · rw [Nat.mod_eq_of_lt (by omega)]
    omega
  · rw [show i + n - 1 = i - 1 + n by omega, Nat.add_mod_right, Nat.mod_eq_of_lt (by omega)]
    omega

theorem behind_ne (hn : 2 ≤ n) (hi : i < n) : behind n i ≠ i := by
  unfold behind
  by_cases hlast : i + 1 = n
  · rw [hlast, Nat.mod_self]
    omega
  · rw [Nat.mod_eq_of_lt (by omega)]
    omega

theorem before_lt (hi : i < n) : before n i < n := Nat.mod_lt _ (by omega)

theorem behind_lt (hi : i < n) : behind n i < n := Nat.mod_lt _ (by omega)

/-- What is added to the word at `i`: it does not depend on that word. -/
def mixed (key : List UInt32) (sum : UInt32) (words : List UInt32) (i : Nat) : UInt32 :=
  let z := words.getD (before words.length i) 0
  let y := words.getD (behind words.length i) 0
  (((z >>> 5) ^^^ (y <<< 2)) + ((y >>> 3) ^^^ (z <<< 4))) ^^^
    ((y ^^^ sum) + (z ^^^ key.getD ((i &&& 3) ^^^ selector sum) 0))

def stir (key : List UInt32) (sum : UInt32) (words : List UInt32) (i : Nat) : List UInt32 :=
  words.set i (words.getD i 0 + mixed key sum words i)

def unstir (key : List UInt32) (sum : UInt32) (words : List UInt32) (i : Nat) : List UInt32 :=
  words.set i (words.getD i 0 - mixed key sum words i)

theorem getD_set_self {v : UInt32} (hi : i < words.length) : (words.set i v).getD i 0 = v := by
  rw [List.getD_eq_getElem?_getD, List.getElem?_set_self hi, Option.getD_some]

theorem getD_set_ne {v : UInt32} (h : j ≠ i) : (words.set i v).getD j 0 = words.getD j 0 := by
  rw [List.getD_eq_getElem?_getD, List.getElem?_set_ne h.symm, List.getD_eq_getElem?_getD]

theorem mixed_set {v : UInt32} (hn : 2 ≤ words.length) (hi : i < words.length) :
    mixed key sum (words.set i v) i = mixed key sum words i := by
  unfold mixed
  rw [List.length_set, getD_set_ne (before_ne hn hi), getD_set_ne (behind_ne hn hi)]

theorem set_getD_self (hi : i < words.length) : words.set i (words.getD i 0) = words := by
  rw [List.getD_eq_getElem?_getD, List.getElem?_eq_getElem hi, Option.getD_some,
    List.set_getElem_self]

theorem unstir_stir (hn : 2 ≤ words.length) (hi : i < words.length) :
    unstir key sum (stir key sum words i) i = words := by
  unfold unstir stir
  rw [mixed_set hn hi, getD_set_self hi, List.set_set, UInt32.add_sub_cancel, set_getD_self hi]

theorem stir_unstir (hn : 2 ≤ words.length) (hi : i < words.length) :
    stir key sum (unstir key sum words i) i = words := by
  unfold unstir stir
  rw [mixed_set hn hi, getD_set_self hi, List.set_set, UInt32.sub_add_cancel, set_getD_self hi]

theorem selector_lt (sum : UInt32) : selector sum < 4 := by
  unfold selector
  rw [UInt32.toNat_and]
  exact Nat.lt_of_le_of_lt Nat.and_le_right (by decide)

/-- No index of a round leaves the key. -/
theorem mix_eq (hkey : key.length = 4) (i : Nat) :
    mix (words.getD (before words.length i) 0) (words.getD (behind words.length i) 0) sum key i
      (selector sum) = some (mixed key sum words i) := by
  have hlow : i &&& 3 < 2 ^ 2 := Nat.lt_of_le_of_lt Nat.and_le_right (by decide)
  have hindex : (i &&& 3) ^^^ selector sum < key.length := by
    rw [hkey]
    exact Nat.xor_lt_two_pow hlow (selector_lt sum)
  unfold mix mixed
  rw [List.getElem?_eq_getElem hindex, List.getD_eq_getElem?_getD, List.getD_eq_getElem?_getD,
    List.getD_eq_getElem?_getD, List.getElem?_eq_getElem hindex]
  rfl

theorem getElem?_of_getD (hi : i < words.length) : words[i]? = some (words.getD i 0) := by
  rw [List.getD_eq_getElem?_getD, List.getElem?_eq_getElem hi, Option.getD_some]

theorem encryptAt_eq (sum : UInt32) (hkey : key.length = 4) (hi : i < words.length) :
    encryptAt key sum i (behind words.length i) (words, words.getD (before words.length i) 0) =
      some (stir key sum words i, (stir key sum words i).getD i 0) := by
  unfold encryptAt
  dsimp only
  rw [getElem?_of_getD (behind_lt hi), getElem?_of_getD hi]
  dsimp only [Option.bind_eq_bind, Option.bind_some]
  rw [mix_eq hkey i]
  unfold stir
  rw [getD_set_self hi]
  rfl

theorem decryptAt_eq (sum : UInt32) (hkey : key.length = 4) (hi : i < words.length) :
    decryptAt key sum i (before words.length i) (words, words.getD (behind words.length i) 0) =
      some (unstir key sum words i, (unstir key sum words i).getD i 0) := by
  unfold decryptAt
  dsimp only
  rw [getElem?_of_getD (before_lt hi), getElem?_of_getD hi]
  dsimp only [Option.bind_eq_bind, Option.bind_some]
  rw [mix_eq hkey i]
  unfold unstir
  rw [getD_set_self hi]
  rfl

/-! ## One round -/

@[simp] theorem length_stir (key : List UInt32) (sum : UInt32) (words : List UInt32) (i : Nat) :
    (stir key sum words i).length = words.length := List.length_set

@[simp] theorem length_unstir (key : List UInt32) (sum : UInt32) (words : List UInt32) (i : Nat) :
    (unstir key sum words i).length = words.length := List.length_set

def stirAll (key : List UInt32) (words : List UInt32) (sum : UInt32) : List UInt32 :=
  run (stir key sum) words (List.range words.length)

def unstirAll (key : List UInt32) (words : List UInt32) (sum : UInt32) : List UInt32 :=
  run (unstir key sum) words (List.range words.length).reverse

theorem length_stirred (words : List UInt32) (is : List Nat) :
    (run (stir key sum) words is).length = words.length :=
  run_invariant (I := fun ws => ws.length = words.length)
    (fun ws i hws => (length_stir key sum ws i).trans hws) is rfl

theorem length_unstirred (words : List UInt32) (is : List Nat) :
    (run (unstir key sum) words is).length = words.length :=
  run_invariant (I := fun ws => ws.length = words.length)
    (fun ws i hws => (length_unstir key sum ws i).trans hws) is rfl

theorem unstirAll_stirAll (h : 2 ≤ words.length) :
    unstirAll key (stirAll key words sum) sum = words := by
  unfold unstirAll
  rw [stirAll, length_stirred]
  exact run_undone (P := fun i => i < words.length) (I := fun ws => ws.length = words.length)
    (fun ws i _ hws => (length_stir key sum ws i).trans hws)
    (fun ws i hi hws => unstir_stir (hws ▸ h) (hws ▸ hi)) (fun i => List.mem_range.mp) rfl

theorem stirAll_unstirAll (h : 2 ≤ words.length) :
    stirAll key (unstirAll key words sum) sum = words := by
  have hundone : run (stir key sum) (run (unstir key sum) words (List.range words.length).reverse)
      (List.range words.length).reverse.reverse = words :=
    run_undone (P := fun i => i < words.length) (I := fun ws => ws.length = words.length)
      (fun ws i _ hws => (length_unstir key sum ws i).trans hws)
      (fun ws i hi hws => stir_unstir (hws ▸ h) (hws ▸ hi))
      (fun i hi => List.mem_range.mp (List.mem_reverse.mp hi)) rfl
  rw [List.reverse_reverse] at hundone
  unfold stirAll
  rw [unstirAll, length_unstirred]
  exact hundone

/-- The words up to one place, each between its neighbours. -/
theorem encrypt_inner (sum : UInt32) (hkey : key.length = 4) {a k : Nat} (h : a + k < n)
    (hwords : words.length = n) :
    (List.range' a k).foldlM (fun s i => encryptAt key sum i (i + 1) s)
        (words, words.getD (before n a) 0) =
      some (run (stir key sum) words (List.range' a k),
        (run (stir key sum) words (List.range' a k)).getD (before n (a + k)) 0) := by
  induction k generalizing a words with
  | zero => rfl
  | succ k ih =>
    have hbehind : behind words.length a = a + 1 := Nat.mod_eq_of_lt (by omega)
    have hbefore : before n (a + 1) = a := by
      unfold before
      rw [show a + 1 + n - 1 = a + n by omega, Nat.add_mod_right, Nat.mod_eq_of_lt (by omega)]
    have hfirst := encryptAt_eq sum hkey (show a < words.length by omega)
    rw [hbehind, hwords] at hfirst
    have hstirred : (stir key sum words a).length = n := by simpa using hwords
    have hrest := ih (a := a + 1) (by omega) hstirred
    rw [hbefore, Nat.add_assoc, Nat.add_comm 1 k] at hrest
    rw [List.range'_succ, List.foldlM_cons, hfirst, run_cons]
    exact hrest

theorem encryptRound_eq (hkey : key.length = 4) (h : 2 ≤ words.length) :
    encryptRound key sum (words, words.getD (words.length - 1) 0) =
      some (stirAll key words sum,
        (stirAll key words sum).getD (words.length - 1) 0) := by
  generalize hn : words.length = n at h
  have hrange : List.range n = List.range' 0 (n - 1) ++ [n - 1] := by
    rw [← List.range_eq_range', ← List.range_succ]
    congr 1
    omega
  have hfirst : before n 0 = n - 1 := by
    unfold before
    rw [Nat.zero_add, Nat.mod_eq_of_lt (by omega)]
  have hinner := encrypt_inner sum hkey (a := 0) (k := n - 1) (by omega) hn
  rw [hfirst, Nat.zero_add] at hinner
  unfold encryptRound stirAll
  dsimp only
  rw [hn, hrange, run_append, List.range_eq_range', hinner]
  generalize hpart : run (stir key sum) words (List.range' 0 (n - 1)) = part
  have hlength : part.length = n := by
    rw [← hpart, length_stirred, hn]
  have hbehind : behind n (n - 1) = 0 := by
    unfold behind
    rw [Nat.sub_add_cancel (by omega), Nat.mod_self]
  have hlast := encryptAt_eq sum hkey (show n - 1 < part.length by omega)
  rw [hlength, hbehind] at hlast
  exact hlast

/-- The words down from one place, each between its neighbours. -/
theorem decrypt_inner (sum : UInt32) (hkey : key.length = 4) {k : Nat} (h : k < n)
    (hwords : words.length = n) :
    (List.range' 1 k).reverse.foldlM (fun s i => decryptAt key sum i (i - 1) s)
        (words, words.getD (behind n k) 0) =
      some (run (unstir key sum) words (List.range' 1 k).reverse,
        (run (unstir key sum) words (List.range' 1 k).reverse).getD (behind n 0) 0) := by
  induction k generalizing words with
  | zero => rfl
  | succ k ih =>
    have hbefore : before words.length (k + 1) = k := by
      unfold before
      rw [show k + 1 + words.length - 1 = k + words.length by omega, Nat.add_mod_right,
        Nat.mod_eq_of_lt (by omega)]
    have hbehind : behind n k = k + 1 := Nat.mod_eq_of_lt (by omega)
    have hfirst := decryptAt_eq sum hkey (show k + 1 < words.length by omega)
    rw [hbefore, hwords] at hfirst
    have hunstirred : (unstir key sum words (k + 1)).length = n := by simpa using hwords
    have hrest := ih (by omega) hunstirred
    rw [hbehind] at hrest
    rw [List.range'_concat, List.reverse_append, Nat.one_mul, Nat.add_comm 1 k]
    change (((k + 1) :: (List.range' 1 k).reverse).foldlM _ _) = _
    rw [List.foldlM_cons, Nat.add_sub_cancel, hfirst]
    exact hrest

theorem decryptRound_eq (hkey : key.length = 4) (h : 2 ≤ words.length) :
    decryptRound key sum (words, words.getD 0 0) =
      some (unstirAll key words sum, (unstirAll key words sum).getD 0 0) := by
  generalize hn : words.length = n at h
  have hrange : (List.range n).reverse = (List.range' 1 (n - 1)).reverse ++ [0] := by
    have hcons : List.range' 0 (n - 1 + 1) = 0 :: List.range' 1 (n - 1) := List.range'_succ
    rw [Nat.sub_add_cancel (by omega)] at hcons
    rw [List.range_eq_range', hcons, List.reverse_cons]
  have hlast : behind n (n - 1) = 0 := by
    unfold behind
    rw [Nat.sub_add_cancel (by omega), Nat.mod_self]
  have hinner := decrypt_inner sum hkey (k := n - 1) (by omega) hn
  rw [hlast] at hinner
  unfold decryptRound unstirAll
  dsimp only
  rw [hn, hinner, hrange, run_append]
  generalize hpart : run (unstir key sum) words (List.range' 1 (n - 1)).reverse = part
  have hlength : part.length = n := by
    rw [← hpart, length_unstirred, hn]
  have hbefore : before n 0 = n - 1 := by
    unfold before
    rw [Nat.zero_add, Nat.mod_eq_of_lt (by omega)]
  have hfinal := decryptAt_eq sum hkey (show 0 < part.length by omega)
  rw [hlength, hbefore] at hfinal
  exact hfinal

/-! ## All rounds -/

/-- The sum of round `j`. -/
def sumOf (j : Nat) : UInt32 := UInt32.ofNat j * delta

theorem sumOf_succ (j : Nat) : sumOf (j + 1) = sumOf j + delta := by
  unfold sumOf
  rw [UInt32.ofNat_add, UInt32.add_mul]
  exact congrArg _ (UInt32.one_mul delta)

/-- No sum comes again in `2 ^ 32` rounds. -/
theorem sumOf_ne_zero {j : Nat} (hpos : 0 < j) (hlt : j < 2 ^ 32) : sumOf j ≠ 0 := by
  intro hzero
  have hback : UInt32.ofNat j = 0 := by
    have hinverse : sumOf j * deltaInverse = 0 := by rw [hzero, UInt32.zero_mul]
    unfold sumOf at hinverse
    rwa [UInt32.mul_assoc, delta_inverse, UInt32.mul_one] at hinverse
  have hvalue := congrArg UInt32.toNat hback
  rw [UInt32.toNat_ofNat_of_lt' hlt] at hvalue
  change j = 0 at hvalue
  omega

/-- The sums of the first `k` rounds. -/
def sums (k : Nat) : List UInt32 := (List.range' 1 k).map sumOf

theorem length_rounds {step : List UInt32 → UInt32 → List UInt32}
    (h : ∀ ws sum, (step ws sum).length = ws.length) (words : List UInt32) (ss : List UInt32) :
    (run step words ss).length = words.length :=
  run_invariant (I := fun ws => ws.length = words.length)
    (fun ws sum hws => (h ws sum).trans hws) ss rfl

theorem length_stirAll (words : List UInt32) (sum : UInt32) :
    (stirAll key words sum).length = words.length := length_stirred words _

theorem length_unstirAll (words : List UInt32) (sum : UInt32) :
    (unstirAll key words sum).length = words.length := length_unstirred words _

theorem encryptRounds_eq (hkey : key.length = 4) (h : 2 ≤ words.length) (k j : Nat) :
    encryptRounds key k (sumOf j) (words, words.getD (words.length - 1) 0) =
      some (run (stirAll key) words ((List.range' (j + 1) k).map sumOf)) := by
  induction k generalizing words j with
  | zero => rfl
  | succ k ih =>
    have hstirred : 2 ≤ (stirAll key words (sumOf (j + 1))).length := by
      rw [length_stirAll]
      exact h
    have hrest := ih hstirred (j + 1)
    rw [length_stirAll] at hrest
    unfold encryptRounds
    rw [← sumOf_succ, encryptRound_eq hkey h, List.range'_succ, List.map_cons, run_cons]
    exact hrest

theorem decryptRounds_zero (s : List UInt32 × UInt32) : decryptRounds key 0 s = some (0, s.1) := by
  unfold decryptRounds
  exact dif_pos rfl

theorem decryptRounds_next (hsum : sum ≠ 0) (s : List UInt32 × UInt32) :
    decryptRounds key sum s = (decryptRound key sum s).bind fun s' =>
      (decryptRounds key (sum - delta) s').map fun r => (r.1 + 1, r.2) := by
  conv_lhs => unfold decryptRounds
  rw [dif_neg hsum]
  refine congrArg (decryptRound key sum s).bind (funext fun s' => ?_)
  cases decryptRounds key (sum - delta) s' <;> rfl

/-- The decryption ends after as many rounds as its sum is worth. -/
theorem decryptRounds_eq (hkey : key.length = 4) (h : 2 ≤ words.length) {k : Nat}
    (hk : k < 2 ^ 32) : decryptRounds key (sumOf k) (words, words.getD 0 0) =
      some (k, run (unstirAll key) words (sums k).reverse) := by
  induction k generalizing words with
  | zero =>
    have hzero : sumOf 0 = 0 := by decide
    rw [hzero, decryptRounds_zero]
    rfl
  | succ k ih =>
    have hunstirred : 2 ≤ (unstirAll key words (sumOf (k + 1))).length := by
      rw [length_unstirAll]
      exact h
    have hrest := ih hunstirred (by omega)
    have hlast : (sums (k + 1)).reverse = sumOf (k + 1) :: (sums k).reverse := by
      unfold sums
      rw [List.range'_concat, List.map_append, List.reverse_append, Nat.one_mul, Nat.add_comm 1 k]
      rfl
    have hsum : sumOf (k + 1) - delta = sumOf k := by
      rw [sumOf_succ, UInt32.add_sub_cancel]
    rw [decryptRounds_next (sumOf_ne_zero k.succ_pos hk), decryptRound_eq hkey h, Option.bind_some,
      hsum, hrest, Option.map_some, hlast, run_cons]

theorem decrypt_encrypt (h : 2 ≤ words.length) (ss : List UInt32) :
    run (unstirAll key) (run (stirAll key) words ss) ss.reverse = words :=
  run_undone (P := fun _ => True) (I := fun ws => ws.length = words.length)
    (fun ws sum _ hws => (length_stirAll ws sum).trans hws)
    (fun _ _ _ hws => unstirAll_stirAll (hws ▸ h)) (fun _ _ => trivial) rfl

theorem encrypt_decrypt (h : 2 ≤ words.length) (ss : List UInt32) :
    run (stirAll key) (run (unstirAll key) words ss.reverse) ss = words := by
  have hundone : run (stirAll key) (run (unstirAll key) words ss.reverse) ss.reverse.reverse =
      words :=
    run_undone (P := fun _ => True) (I := fun ws => ws.length = words.length)
      (fun ws sum _ hws => (length_unstirAll ws sum).trans hws)
      (fun _ _ _ hws => stirAll_unstirAll (hws ▸ h)) (fun _ _ => trivial) rfl
  rwa [List.reverse_reverse] at hundone

/-! ## Bytes -/

variable {data : List UInt8} {keyBytes : Vector UInt8 16}

@[simp] theorem length_wordBytes (w : UInt32) : (wordBytes w).length = 4 := Words.length_little 4 _

theorem ofWordBytes_wordBytes (w : UInt32) : ofWordBytes (wordBytes w) = w :=
  Words.ofLittle_word w

theorem wordBytes_ofWordBytes {bytes : List UInt8} (h : bytes.length = 4) :
    wordBytes (ofWordBytes bytes) = bytes := Words.little_word h

theorem wordsOf_bytes (words : List UInt32) : wordsOf (words.flatMap wordBytes) = words := by
  induction words with
  | nil => rfl
  | cons w words ih =>
    rw [List.flatMap_cons]
    change ofWordBytes (wordBytes w) :: wordsOf (words.flatMap wordBytes) = _
    rw [ih, ofWordBytes_wordBytes]

theorem bytes_wordsOf (h : data.length % 4 = 0) :
    (wordsOf data).flatMap wordBytes = data ∧ 4 * (wordsOf data).length = data.length := by
  induction data using wordsOf.induct with
  | case1 a b c d rest ih =>
    simp only [List.length_cons] at h
    obtain ⟨hbytes, hlength⟩ := ih (by omega)
    unfold wordsOf
    rw [List.flatMap_cons, wordBytes_ofWordBytes rfl, hbytes]
    refine ⟨rfl, ?_⟩
    simp only [List.length_cons]
    omega
  | case2 data hshort =>
    have hnil : data = [] := by
      match data, hshort, h with
      | [], _, _ => rfl
      | [_], _, h => cases h
      | [_, _], _, h => cases h
      | [_, _, _], _, h => cases h
      | a :: b :: c :: d :: rest, hshort, _ => exact absurd rfl (hshort a b c d rest)
    subst hnil
    exact ⟨rfl, rfl⟩

theorem length_bytes (words : List UInt32) : (words.flatMap wordBytes).length = 4 * words.length := by
  induction words with
  | nil => rfl
  | cons w words ih =>
    rw [List.flatMap_cons, List.length_append, length_wordBytes, ih, List.length_cons]
    omega

/-- All words are written where there is room for them. -/
theorem store_eq {words : List UInt32} (h : 4 * i + 4 * words.length ≤ data.length) :
    store data i words = some (data.take (4 * i) ++ words.flatMap wordBytes ++
      data.drop (4 * i + 4 * words.length)) := by
  induction words generalizing data i with
  | nil => simp [store]
  | cons w words ih =>
    rw [List.length_cons] at h
    have hroom : i * 4 + (wordBytes w).length ≤ data.length := by
      rw [length_wordBytes]
      omega
    have hfront : (data.take (i * 4)).length = i * 4 := by
      rw [List.length_take]
      omega
    unfold store
    rw [if_pos (by omega), ih (by rw [Bytes.length_overwrite hroom]; omega)]
    have htake : (Bytes.overwrite data (i * 4) (wordBytes w)).take (4 * (i + 1)) =
        data.take (4 * i) ++ wordBytes w := by
      unfold Bytes.overwrite
      rw [List.take_left', Nat.mul_comm i 4]
      rw [List.length_append, hfront, length_wordBytes]
      omega
    have hdrop : (Bytes.overwrite data (i * 4) (wordBytes w)).drop
        (4 * (i + 1) + 4 * words.length) = data.drop (4 * i + 4 * (words.length + 1)) := by
      have hwritten : (data.take (i * 4) ++ wordBytes w).length = i * 4 + 4 := by
        rw [List.length_append, hfront, length_wordBytes]
      unfold Bytes.overwrite
      rw [show 4 * (i + 1) + 4 * words.length = (data.take (i * 4) ++ wordBytes w).length +
        4 * words.length by omega, List.drop_length_add_append, List.drop_drop, length_wordBytes]
      congr 1
      omega
    rw [htake, hdrop, List.flatMap_cons, List.length_cons, List.append_assoc (data.take (4 * i))]

theorem keyWords_eq (keyBytes : Vector UInt8 16) :
    ∃ key, keyWords keyBytes = some key ∧ key.length = 4 := by
  have hpart : ∀ i < 4, part keyBytes.toList (i * 4) (i * 4 + 4) =
      some (Bytes.slice keyBytes.toList (i * 4) 4) := by
    intro i hi
    exact part_eq (by rw [Vector.length_toList]; omega)
  refine ⟨(List.range 4).map fun i => ofWordBytes (Bytes.slice keyBytes.toList (i * 4) 4), ?_, rfl⟩
  unfold keyWords
  simp only [show List.range 4 = [0, 1, 2, 3] from rfl, List.mapM_cons, List.mapM_nil,
    hpart 0 (by decide), hpart 1 (by decide), hpart 2 (by decide), hpart 3 (by decide)]
  rfl

/-! ## Both directions -/

theorem rounds_lt (n : Nat) : roundsOf n < 2 ^ 32 := by
  have hdiv := Nat.div_le_self 52 n
  unfold roundsOf
  omega

/-- What the cipher makes of the words. -/
def crypted (key words : List UInt32) (decrypt : Bool) : List UInt32 :=
  if decrypt then run (unstirAll key) words (sums (roundsOf words.length)).reverse
  else run (stirAll key) words (sums (roundsOf words.length))

theorem length_crypted (key words : List UInt32) (decrypt : Bool) :
    (crypted key words decrypt).length = words.length := by
  unfold crypted
  split
  · exact length_rounds length_unstirAll words _
  · exact length_rounds length_stirAll words _

theorem encryptWords_eq (hkey : key.length = 4) (h : 2 ≤ words.length) :
    encryptWords key words = some (crypted key words false) := by
  have hrounds := encryptRounds_eq hkey h (roundsOf words.length) 0
  have hzero : sumOf 0 = 0 := by decide
  rw [hzero] at hrounds
  unfold encryptWords
  rw [getElem?_of_getD (by omega : words.length - 1 < words.length)]
  exact hrounds

theorem decryptWords_eq (hkey : key.length = 4) (h : 2 ≤ words.length) :
    decryptWords key words = some (crypted key words true) := by
  have hrounds := decryptRounds_eq hkey h (rounds_lt words.length)
  unfold decryptWords
  rw [getElem?_of_getD (by omega : 0 < words.length), Option.bind_eq_bind, Option.bind_some]
  exact congrArg (Option.map Prod.snd) hrounds

theorem crypted_crypted (h : 2 ≤ words.length) (decrypt : Bool) :
    crypted key (crypted key words decrypt) (!decrypt) = words := by
  have hlength := length_crypted key words decrypt
  unfold crypted at hlength ⊢
  cases decrypt with
  | true =>
    simp only [if_true, Bool.not_true, Bool.false_eq_true, if_false] at hlength ⊢
    rw [hlength]
    exact encrypt_decrypt h _
  | false =>
    simp only [if_true, Bool.not_false, Bool.false_eq_true, if_false] at hlength ⊢
    rw [hlength]
    exact decrypt_encrypt h _

/-- A buffer that the cipher takes. -/
structure Fits (data : List UInt8) : Prop where
  min : 8 ≤ data.length
  max : data.length ≤ 160
  words : data.length % 4 = 0

theorem Fits.two_words (h : Fits data) : 2 ≤ (wordsOf data).length := by
  have hmin := h.min
  have hwords := (bytes_wordsOf h.words).2
  omega

/-- The cipher runs to its end on every buffer that it takes. -/
theorem crypt_eq (keyBytes : Vector UInt8 16) : ∃ key, ∀ data, Fits data → ∀ decrypt,
    crypt data keyBytes decrypt =
      some (.ok ((crypted key (wordsOf data) decrypt).flatMap wordBytes)) := by
  obtain ⟨key, hkey, hfour⟩ := keyWords_eq keyBytes
  refine ⟨key, fun data h decrypt => ?_⟩
  have hmin := h.min
  have hmax := h.max
  have hsize := h.words
  have htwo := h.two_words
  have hlength := (bytes_wordsOf h.words).2
  have hstore : store data 0 (crypted key (wordsOf data) decrypt) =
      some ((crypted key (wordsOf data) decrypt).flatMap wordBytes) := by
    have hcrypted := length_crypted key (wordsOf data) decrypt
    rw [store_eq (by omega), Nat.mul_zero, List.take_zero, List.nil_append, List.drop_eq_nil_of_le,
      List.append_nil]
    omega
  have hwords : cryptWords key (wordsOf data) decrypt =
      some (crypted key (wordsOf data) decrypt) := by
    cases decrypt with
    | true => exact decryptWords_eq hfour htwo
    | false => exact encryptWords_eq hfour htwo
  unfold crypt
  rw [if_neg (by omega), hkey]
  dsimp only [Option.bind_eq_bind, Option.bind_some]
  rw [hwords, Option.bind_some, hstore]
  rfl

theorem crypt_inverts (keyBytes : Vector UInt8 16) (h : Fits data) (decrypt : Bool) :
    ∃ other, crypt data keyBytes decrypt = some (.ok other) ∧ other.length = data.length ∧
      crypt other keyBytes (!decrypt) = some (.ok data) := by
  obtain ⟨key, hcrypt⟩ := crypt_eq keyBytes
  obtain ⟨hbytes, hlength⟩ := bytes_wordsOf h.words
  have hcrypted := length_crypted key (wordsOf data) decrypt
  have hsame : ((crypted key (wordsOf data) decrypt).flatMap wordBytes).length = data.length := by
    rw [length_bytes, hcrypted, hlength]
  have hfits : Fits ((crypted key (wordsOf data) decrypt).flatMap wordBytes) :=
    ⟨hsame ▸ h.min, hsame ▸ h.max, hsame ▸ h.words⟩
  refine ⟨_, hcrypt data h decrypt, hsame, ?_⟩
  rw [hcrypt _ hfits, wordsOf_bytes, crypted_crypted h.two_words, hbytes]

/-- A buffer that the cipher does not take is an error. -/
theorem crypt_refuses (keyBytes : Vector UInt8 16) (h : ¬ Fits data) (decrypt : Bool) :
    crypt data keyBytes decrypt = some (.error "Invalid corrected XXTEA outer size") := by
  unfold crypt
  refine if_pos ?_
  by_contra hnot
  exact h ⟨by omega, by omega, by omega⟩

/-! ## Sealed records -/

variable {record : List UInt8} {time : Trailer}

/-- What is sealed: the record, the marker and the time. -/
def plainRecord (record : List UInt8) (time : Trailer) : List UInt8 :=
  record ++ wordBytes marker ++ Words.little 8 time.filetime.toNat ++ wordBytes time.ticks

theorem length_plainRecord (h : record.length = 16) (time : Trailer) :
    (plainRecord record time).length = 32 := by
  simp [plainRecord, h]

/-- The record that is opened is the one that was sealed. -/
theorem open_sealRecord (keyBytes : Vector UInt8 16) (h : record.length = 16) (time : Trailer) :
    ∃ cipher, sealRecord record keyBytes time = some (.ok cipher) ∧
      openRecord cipher keyBytes =
        some (if record.take 8 = token then .ok record
          else .error "PASSTHRU reply token differs") := by
  have hlength := length_plainRecord h time
  have hfits : Fits (plainRecord record time) := ⟨by omega, by omega, by omega⟩
  obtain ⟨cipher, hseal, hsame, hopen⟩ := crypt_inverts keyBytes hfits false
  refine ⟨cipher, hseal, ?_⟩
  have hmarker : part (plainRecord record time) 16 20 = some (wordBytes marker) := by
    unfold plainRecord
    rw [List.append_assoc (record ++ wordBytes marker)]
    exact part_append h (by rw [length_wordBytes])
  have htoken : part (plainRecord record time) 0 8 = some (record.take 8) := by
    have hsplit : plainRecord record time = [] ++ record.take 8 ++ (record.drop 8 ++
        wordBytes marker ++ Words.little 8 time.filetime.toNat ++ wordBytes time.ticks) := by
      unfold plainRecord
      rw [List.nil_append, List.append_assoc (record.drop 8 ++ _), List.append_assoc (record.drop 8),
        ← List.append_assoc (record.take 8), List.take_append_drop, List.append_assoc,
        List.append_assoc]
    rw [hsplit]
    exact part_append rfl (by rw [List.length_take, h]; rfl)
  have hrecord : part (plainRecord record time) 0 16 = some record := by
    unfold plainRecord
    rw [List.append_assoc, List.append_assoc, ← List.nil_append record]
    exact part_append rfl (by rw [h])
  unfold openRecord
  rw [if_neg (by omega)]
  change (crypt cipher keyBytes true).bind _ = _
  rw [show crypt cipher keyBytes true = some (.ok (plainRecord record time)) from hopen]
  dsimp only [Option.bind_some]
  rw [hmarker, htoken, hrecord]
  by_cases hnamed : record.take 8 = token
  · simp [hnamed]
  · simp [hnamed]

/-- What one direction of the cipher makes of a buffer the other one takes back, in so many rounds
and with no index outside; and of the records that are sealed those are opened that start with the
token. -/
theorem record_cipher (keyBytes : Vector UInt8 16) :
    (∀ (data : List UInt8) (decrypt : Bool), 8 ≤ data.length → data.length ≤ 160 →
        data.length % 4 = 0 → ∃ other, crypt data keyBytes decrypt = some (.ok other) ∧
          crypt other keyBytes (!decrypt) = some (.ok data)) ∧
      (∀ (data : List UInt8) (decrypt : Bool), crypt data keyBytes decrypt ≠ none) ∧
      (∃ key, keyWords keyBytes = some key ∧ ∀ words : List UInt32, 2 ≤ words.length →
        ∃ plain, decryptRounds key (UInt32.ofNat (roundsOf words.length) * delta)
          (words, words.getD 0 0) = some (64 + 52 / words.length, plain)) ∧
      ∀ record : List UInt8, record.length = 16 → ∀ time, ∃ cipher,
        sealRecord record keyBytes time = some (.ok cipher) ∧
          (openRecord cipher keyBytes = some (.ok record) ↔ record.take 8 = token) ∧
          ((∃ opened, openRecord cipher keyBytes = some (.ok opened)) ↔ record.take 8 = token) := by
  refine ⟨?_, ?_, ?_, ?_⟩
  · intro data decrypt hmin hmax hwords
    obtain ⟨other, hother, -, hback⟩ := crypt_inverts keyBytes ⟨hmin, hmax, hwords⟩ decrypt
    exact ⟨other, hother, hback⟩
  · intro data decrypt hnone
    by_cases hfits : Fits data
    · obtain ⟨key, hcrypt⟩ := crypt_eq keyBytes
      rw [hcrypt data hfits decrypt] at hnone
      cases hnone
    · rw [crypt_refuses keyBytes hfits] at hnone
      cases hnone
  · obtain ⟨key, hkey, hfour⟩ := keyWords_eq keyBytes
    exact ⟨key, hkey, fun words h => ⟨_, decryptRounds_eq hfour h (rounds_lt words.length)⟩⟩
  · intro record h time
    obtain ⟨cipher, hseal, hopen⟩ := open_sealRecord keyBytes h time
    refine ⟨cipher, hseal, ?_, ?_⟩
    · rw [hopen]
      split <;> simp [*]
    · rw [hopen]
      split <;> simp [*]

theorem record_cipher_of_zeros :
    ∃ cipher, sealRecord (token ++ List.replicate 8 0) (Vector.replicate 16 0) ⟨0, 0⟩ =
        some (.ok cipher) ∧
      openRecord cipher (Vector.replicate 16 0) = some (.ok (token ++ List.replicate 8 0)) := by
  obtain ⟨cipher, hseal, hopen, -⟩ := (record_cipher (Vector.replicate 16 0)).2.2.2
    (token ++ List.replicate 8 0) (by decide) ⟨0, 0⟩
  exact ⟨cipher, hseal, hopen.mpr (by decide)⟩

end OpenSaab.VcxNano
