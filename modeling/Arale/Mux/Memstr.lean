import Mathlib.Data.List.Infix
import Arale.At.Tok

/-!
# `memstr`: searching what the modem said

Before the multiplexer runs, the answers of the modem are searched for words
with `memstr`, since `strstr` would stop at the first NUL. It goes through the
octets once and counts in `j` how many letters of the word it has just seen. A
letter that does not fit sets `j` back to 0, and it is not looked at again, so
a word can begin only behind it.

What is found is there (`infix_of_memstr`). What is there is found unless it
stands right behind a part of itself: with `OOK`, the second `O` ends the
attempt that the first began, and the `K` begins none.

> `memstr_iff`: the result is the substring relation if the word is one letter
> repeated, or if some occurrence does not stand behind a beginning of the word.
> `memstr_always_iff`: for all texts it is so only for the former words.
-/

namespace Arale.Mux

open List
open Arale.At (bytes)

/-- `needle[j]`, with the NUL behind the letters. -/
def letterAt (needle : List UInt8) (j : Nat) : UInt8 := needle.getD j 0

/-- The loop, with `j` letters seen. -/
def memstrLoop (needle : List UInt8) : Nat → List UInt8 → Bool
  | _, [] => false
  | j, b :: rest =>
    if letterAt needle j = b then
      -- entire needle was found
      if letterAt needle (j + 1) = 0 then true else memstrLoop needle (j + 1) rest
    else memstrLoop needle 0 rest

/-- Compares the first `length` octets of `haystack` with a word. -/
def memstr (haystack : List UInt8) (length : Nat) (needle : List UInt8) : Bool :=
  if letterAt needle 0 = 0 then true else memstrLoop needle 0 (haystack.take length)

/-- What an octet makes of the number of letters seen. -/
def restart (needle : List UInt8) (j : Nat) (b : UInt8) : Nat :=
  if letterAt needle j = b then j + 1 else 0

/-! ## The letters of a word -/

/-- A C string that is not empty. -/
structure Word (needle : List UInt8) : Prop where
  nonempty : 0 < needle.length
  letters : 0 ∉ needle

section

variable {needle : List UInt8} {j : Nat}

theorem letterAt_of_lt (hj : j < needle.length) : letterAt needle j = needle[j] := by
  rw [letterAt, getD_eq_getElem?_getD, List.getElem?_eq_getElem hj]
  rfl

/-- The NUL is behind the last letter. -/
theorem Word.letterAt_eq_zero (h : Word needle) (hj : j ≤ needle.length) :
    letterAt needle j = 0 ↔ j = needle.length := by
  constructor
  · intro hzero
    by_contra hne
    have hlt : j < needle.length := by omega
    rw [letterAt_of_lt hlt] at hzero
    exact h.letters (hzero ▸ getElem_mem hlt)
  · rintro rfl
    rw [letterAt, getD_eq_getElem?_getD, List.getElem?_eq_none (Nat.le_refl _)]
    rfl

theorem Word.memstr_eq (h : Word needle) (haystack : List UInt8) (length : Nat) :
    memstr haystack length needle = memstrLoop needle 0 (haystack.take length) := by
  refine if_neg ?_
  rw [h.letterAt_eq_zero (Nat.zero_le _)]
  exact Nat.ne_of_lt h.nonempty

/-- One octet of the text. -/
theorem Word.memstrLoop_cons (h : Word needle) (hj : j < needle.length) (b : UInt8)
    (rest : List UInt8) :
    memstrLoop needle j (b :: rest)
      = (decide (restart needle j b = needle.length)
        || memstrLoop needle (restart needle j b) rest) := by
  rw [memstrLoop, restart]
  by_cases hb : letterAt needle j = b
  · rw [if_pos hb, if_pos hb]
    by_cases hlast : j + 1 = needle.length
    · rw [if_pos ((h.letterAt_eq_zero (by omega)).mpr hlast), decide_eq_true hlast, Bool.true_or]
    · rw [if_neg (mt (h.letterAt_eq_zero (by omega)).mp hlast), decide_eq_false hlast,
        Bool.false_or]
  · have hne : 0 ≠ needle.length := Nat.ne_of_lt h.nonempty
    rw [if_neg hb, if_neg hb, decide_eq_false hne, Bool.false_or]

theorem take_restart {b : UInt8} (hj : j < needle.length) (hb : letterAt needle j = b) :
    needle.take (j + 1) = needle.take j ++ [b] := by
  rw [take_succ_eq_append_getElem hj, ← letterAt_of_lt hj, hb]

/-- The letters seen are the last octets of the text. -/
theorem restart_suffix {pre : List UInt8} (hj : j < needle.length) (hseen : needle.take j <:+ pre)
    (b : UInt8) : needle.take (restart needle j b) <:+ pre ++ [b] := by
  unfold restart
  split
  · next hb =>
    rw [take_restart hj hb]
    exact (suffix_append_inj_of_length_eq rfl).mpr ⟨hseen, rfl⟩
  · exact nil_suffix

theorem restart_le (needle : List UInt8) (j : Nat) (b : UInt8) : restart needle j b ≤ j + 1 := by
  unfold restart
  split <;> omega

/-! ## What is found is there -/

theorem Word.infix_of_memstrLoop (h : Word needle) (rest pre : List UInt8) (j : Nat)
    (hj : j < needle.length) (hseen : needle.take j <:+ pre)
    (hfound : memstrLoop needle j rest = true) : needle <:+: pre ++ rest := by
  induction rest generalizing pre j with
  | nil => cases hfound
  | cons b rest ih =>
    have hnext := restart_suffix hj hseen b
    rw [h.memstrLoop_cons hj] at hfound
    rw [append_cons]
    by_cases hwhole : restart needle j b = needle.length
    · rw [hwhole, take_length] at hnext
      exact hnext.isInfix.trans (prefix_append (pre ++ [b]) rest).isInfix
    · rw [decide_eq_false hwhole, Bool.false_or] at hfound
      have hle := restart_le needle j b
      exact ih (pre ++ [b]) _ (by omega) hnext hfound

/-- **Soundness**, for every text and every word. -/
theorem Word.infix_of_memstr (h : Word needle) {haystack : List UInt8} {length : Nat}
    (hfound : memstr haystack length needle = true) : needle <:+: haystack.take length := by
  rw [h.memstr_eq] at hfound
  exact h.infix_of_memstrLoop _ [] 0 h.nonempty nil_suffix hfound

/-! ## What is there is found -/

/-- Behind a text without the word the search goes on with the letters seen
last. -/
theorem Word.memstrLoop_append (h : Word needle) (pre seen rest : List UInt8) (j : Nat)
    (hj : j < needle.length) (hseen : needle.take j <:+ seen) :
    memstrLoop needle j (pre ++ rest) = true ∨
      ∃ k < needle.length, needle.take k <:+ seen ++ pre ∧
        memstrLoop needle j (pre ++ rest) = memstrLoop needle k rest := by
  induction pre generalizing seen rest j with
  | nil =>
    refine .inr ⟨j, hj, ?_, rfl⟩
    rwa [append_nil]
  | cons b pre ih =>
    rw [cons_append, h.memstrLoop_cons hj, append_cons]
    by_cases hwhole : restart needle j b = needle.length
    · rw [decide_eq_true hwhole, Bool.true_or]
      exact .inl rfl
    · rw [decide_eq_false hwhole, Bool.false_or]
      have hle := restart_le needle j b
      exact ih (seen ++ [b]) rest _ (by omega) (restart_suffix hj hseen b)

/-- The letters of the word are taken one by one. -/
theorem Word.memstrLoop_letters (h : Word needle) (rest : List UInt8) (m i : Nat)
    (hi : i + m < needle.length) :
    memstrLoop needle i ((needle.drop i).take m ++ rest) = memstrLoop needle (i + m) rest := by
  induction m generalizing i with
  | zero => rw [take_zero, nil_append, Nat.add_zero]
  | succ m ih =>
    have hlt : i < needle.length := by omega
    have hnext : restart needle i needle[i] = i + 1 := if_pos (letterAt_of_lt hlt)
    have hmore : i + 1 ≠ needle.length := by omega
    rw [drop_eq_getElem_cons hlt, take_succ_cons, cons_append,
      h.memstrLoop_cons hlt, hnext, decide_eq_false hmore, Bool.false_or, ih (i + 1) (by omega),
      Nat.add_right_comm, Nat.add_assoc]

/-- The whole word, from its beginning. -/
theorem Word.memstrLoop_self (h : Word needle) (post : List UInt8) :
    memstrLoop needle 0 (needle ++ post) = true := by
  obtain ⟨n, hn⟩ : ∃ n, needle.length = n + 1 := ⟨needle.length - 1, by have := h.nonempty; omega⟩
  have hlt : n < needle.length := by omega
  have hsplit : needle = needle.take n ++ [needle[n]] := by
    rw [← take_succ_eq_append_getElem hlt, ← hn, take_length]
  have hletters := h.memstrLoop_letters (needle[n] :: post) n 0 (by omega)
  have hlast : restart needle n needle[n] = needle.length := by
    rw [hn]
    exact if_pos (letterAt_of_lt hlt)
  rw [drop_zero, Nat.zero_add, h.memstrLoop_cons hlt, hlast, decide_eq_true rfl,
    Bool.true_or] at hletters
  rw [append_cons, ← hsplit] at hletters
  exact hletters

/-- The word does not stand behind a beginning of itself. -/
def Fresh (needle pre : List UInt8) : Prop :=
  ∀ k, 0 < k → k < needle.length → ¬ needle.take k <:+ pre

theorem Word.memstrLoop_of_fresh (h : Word needle) {pre : List UInt8} (hfresh : Fresh needle pre)
    (post : List UInt8) : memstrLoop needle 0 (pre ++ (needle ++ post)) = true := by
  rcases h.memstrLoop_append pre [] (needle ++ post) 0 h.nonempty nil_suffix with
    hfound | ⟨k, hk, hseen, heq⟩
  · exact hfound
  · have hzero : k = 0 := by
      by_contra hne
      exact hfresh k (Nat.pos_of_ne_zero hne) hk hseen
    rw [heq, hzero]
    exact h.memstrLoop_self post

/-- A letter repeated, behind any number of the same letter. -/
theorem memstrLoop_replicate {n : Nat} {c : UInt8} (h : Word (replicate n c))
    (post : List UInt8) (m k : Nat) (hk : k < n) (hle : n ≤ k + m) :
    memstrLoop (replicate n c) k (replicate m c ++ post) = true := by
  induction m generalizing k with
  | zero => omega
  | succ m ih =>
    have hk' : k < (replicate n c).length := by rwa [length_replicate]
    have hnext : restart (replicate n c) k c = k + 1 := by
      refine if_pos ?_
      rw [letterAt_of_lt hk', getElem_replicate]
    rw [replicate_succ, cons_append, h.memstrLoop_cons hk', hnext, length_replicate]
    by_cases hlast : k + 1 = n
    · rw [decide_eq_true hlast, Bool.true_or]
    · rw [ih (k + 1) (by omega) (by omega), Bool.or_true]

theorem Word.memstrLoop_of_replicate {n : Nat} {c : UInt8} (h : Word (replicate n c))
    (pre post : List UInt8) :
    memstrLoop (replicate n c) 0 (pre ++ (replicate n c ++ post)) = true := by
  rcases h.memstrLoop_append pre [] (replicate n c ++ post) 0 h.nonempty
    nil_suffix with hfound | ⟨k, hk, -, heq⟩
  · exact hfound
  · rw [length_replicate] at hk
    rw [heq]
    exact memstrLoop_replicate h post n k hk (by omega)

/-- Words whose occurrences are found: one letter repeated, or with an
occurrence that does not stand behind a beginning of the word. -/
def Findable (needle haystack : List UInt8) : Prop :=
  (∃ n c, needle = replicate n c) ∨
    (needle <:+: haystack → ∃ pre post, haystack = pre ++ (needle ++ post) ∧ Fresh needle pre)

theorem Word.memstr_of_infix (h : Word needle) {haystack : List UInt8} {length : Nat}
    (hfind : Findable needle (haystack.take length))
    (hthere : needle <:+: haystack.take length) : memstr haystack length needle = true := by
  rw [h.memstr_eq]
  rcases hfind with ⟨n, c, rfl⟩ | hfind
  · obtain ⟨pre, post, heq⟩ := hthere
    rw [← heq, append_assoc]
    exact h.memstrLoop_of_replicate pre post
  · obtain ⟨pre, post, heq, hfresh⟩ := hfind hthere
    rw [heq]
    exact h.memstrLoop_of_fresh hfresh post

/-- **`memstr`** is the search for a substring. -/
theorem memstr_iff {haystack needle : List UInt8} {length : Nat} (hword : Word needle)
    (hfind : Findable needle (haystack.take length)) :
    memstr haystack length needle = true ↔ needle <:+: haystack.take length :=
  ⟨hword.infix_of_memstr, hword.memstr_of_infix hfind⟩

theorem word_ok : Word (bytes "OK") := ⟨by decide, by decide⟩

theorem fresh_ok_newline : Fresh (bytes "OK") (bytes "\r\n") := by
  intro k hpos hlt
  obtain rfl : k = 1 := by
    have hlt' : k < 2 := hlt
    omega
  decide

/-- `OK` between two line ends. -/
theorem memstr_iff_ok :
    memstr (bytes "\r\nOK\r\n") 6 (bytes "OK") = true ∧
      (memstr (bytes "\r\nOK\r\n") 6 (bytes "OK") = true ↔
        bytes "OK" <:+: (bytes "\r\nOK\r\n").take 6) := by
  refine ⟨by decide, memstr_iff word_ok (.inr fun _ => ?_)⟩
  exact ⟨bytes "\r\n", bytes "\r\n", by decide, fresh_ok_newline⟩

/-- `OK` behind an `O`. -/
theorem ok_not_found :
    ¬ ∀ (haystack : List UInt8) (length : Nat) (needle : List UInt8), Word needle →
      (memstr haystack length needle = true ↔ needle <:+: haystack.take length) := by
  intro h
  have hfound := (h (bytes "OOK") 3 (bytes "OK") word_ok).mpr ⟨bytes "O", [], by decide⟩
  revert hfound
  decide

/-! ## Words that are always found -/

/-- With a letter other than the first, the word is not found behind the letters
in front of that one. -/
theorem Word.not_found_behind (h : Word needle) {c : UInt8} {tail : List UInt8}
    (hcons : needle = c :: tail) (hj : j < needle.length) (hother : needle[j] ≠ c) :
    memstrLoop needle 0 (needle.take j ++ needle) = false := by
  have hletters := h.memstrLoop_letters needle j 0 (by omega)
  have hback : restart needle j c = 0 := by
    refine if_neg ?_
    rwa [letterAt_of_lt hj]
  have hne : (0 : Nat) ≠ needle.length := Nat.ne_of_lt h.nonempty
  -- the letters up to `j`, and then the first one in place of the one at `j`
  have hloop : memstrLoop needle 0 (needle.take j ++ needle) = memstrLoop needle 0 tail := by
    have hstep := h.memstrLoop_cons hj c tail
    rw [hback, decide_eq_false hne, Bool.false_or, ← hcons] at hstep
    rw [drop_zero, Nat.zero_add] at hletters
    exact hletters.trans hstep
  rw [hloop, Bool.eq_false_iff]
  intro hfound
  -- what is left is shorter than the word
  have hle := (h.infix_of_memstrLoop tail [] 0 h.nonempty nil_suffix hfound).length_le
  rw [hcons, nil_append, length_cons] at hle
  omega

/-- **For every text** the search is right only with one letter repeated. -/
theorem memstr_always_iff (hword : Word needle) :
    (∀ (haystack : List UInt8) (length : Nat),
        memstr haystack length needle = true ↔ needle <:+: haystack.take length) ↔
      ∃ n c, needle = replicate n c := by
  constructor
  · intro halways
    obtain ⟨c, tail, rfl⟩ := exists_cons_of_length_pos hword.nonempty
    refine ⟨(c :: tail).length, c, eq_replicate_iff.mpr ⟨rfl, ?_⟩⟩
    intro b hb
    by_contra hne
    obtain ⟨j, hj, rfl⟩ := getElem_of_mem hb
    let haystack := (c :: tail).take j ++ (c :: tail)
    have hall := halways haystack haystack.length
    rw [hword.memstr_eq, take_length, hword.not_found_behind rfl hj hne] at hall
    exact Bool.false_ne_true (hall.mpr (suffix_append _ _).isInfix)
  · rintro ⟨n, c, hrep⟩ haystack length
    exact ⟨hword.infix_of_memstr, hword.memstr_of_infix (.inl ⟨n, c, hrep⟩)⟩

end

theorem memstr_always_iff_twice :
    Word [79, 79] ∧ ∀ (haystack : List UInt8) (length : Nat),
      memstr haystack length [79, 79] = true ↔ [79, 79] <:+: haystack.take length :=
  ⟨⟨by decide, by decide⟩, (memstr_always_iff ⟨by decide, by decide⟩).mpr ⟨2, 79, rfl⟩⟩

end Arale.Mux
