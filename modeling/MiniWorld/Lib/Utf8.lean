import Mathlib.Data.List.Infix
import MiniWorld.Lib.Format

/-!
# Texts as bytes

`t.encode()` and `bs.decode()` on lists of bytes. The coding of a character is
that of Lean's core library, as is the decoder.

The decoder undoes the encoder and reads nothing else (`decode_eq_some_iff`), and
it reads a text off the front of what follows it (`decode_encode_append`). So
UTF-8 is a prefix code: bytes that are the code of a text can be cut where a
shorter text ends (`encode_eq_append_iff`), and of two codes one is a prefix of
the other exactly if this holds of the texts (`encode_prefix_iff`).

`LongestPrefix t bs p` says that `p` is what a reader of `t` knows who has got the
bytes `bs`. It is unique (`LongestPrefix.unique`), and it is `decode bs` when
no character is cut (`longestPrefix_encode`).
-/

namespace MiniWorld.Lib

/-- A Python `bytes`. -/
abbrev Bytes := List UInt8

/-- `t.encode()` -/
def encode (t : Text) : Bytes := t.flatMap String.utf8EncodeChar

/-- `bs.decode()`, without a value where it raises `UnicodeDecodeError` -/
def decode (bs : Bytes) : Option Text := bs.toByteArray.utf8Decode?.map Array.toList

@[simp]
theorem encode_nil : encode [] = [] := rfl

theorem encode_cons (c : Char) (t : Text) : encode (c :: t) = encode [c] ++ encode t := by
  unfold encode
  rw [List.flatMap_cons, List.flatMap_singleton]

theorem encode_append (s t : Text) : encode (s ++ t) = encode s ++ encode t :=
  List.flatMap_append

theorem encode_singleton_ne_nil (c : Char) : encode [c] ≠ [] := by
  unfold encode
  rw [List.flatMap_singleton]
  exact String.utf8EncodeChar_ne_nil

@[simp]
theorem encode_eq_nil_iff {t : Text} : encode t = [] ↔ t = [] := by
  cases t with
  | nil => simp
  | cons c t =>
    rw [encode_cons, List.append_eq_nil_iff]
    simp [encode_singleton_ne_nil]

theorem toByteArray_encode (t : Text) : (encode t).toByteArray = t.utf8Encode := rfl

/-! ## Decoding -/

/-- A character in front of some bytes is read first. -/
theorem decode_encode_singleton_append (c : Char) (bs : Bytes) :
    decode (encode [c] ++ bs) = (decode bs).map (c :: ·) := by
  unfold decode
  rw [List.toByteArray_append, toByteArray_encode, ByteArray.utf8Decode?_utf8Encode_singleton_append,
    Option.map_map, Option.map_map]
  refine congrArg (Option.map · _) (funext fun a => ?_)
  simp

/-- A text in front of some bytes is read first. -/
theorem decode_encode_append (t : Text) (bs : Bytes) :
    decode (encode t ++ bs) = (decode bs).map (t ++ ·) := by
  induction t with
  | nil => simp
  | cons c t ih =>
    rw [encode_cons, List.append_assoc, decode_encode_singleton_append, ih, Option.map_map]
    rfl

@[simp]
theorem decode_nil : decode [] = some [] := by
  unfold decode
  have hnil : ([] : Bytes).toByteArray = ([] : Text).utf8Encode := rfl
  rw [hnil, List.utf8Decode?_utf8Encode]
  rfl

@[simp]
theorem decode_encode (t : Text) : decode (encode t) = some t := by
  have h := decode_encode_append t []
  rw [List.append_nil, decode_nil] at h
  simpa using h

/-- What the decoder reads is the code of the text. -/
theorem encode_of_decode {bs : Bytes} {t : Text} (h : decode bs = some t) : encode t = bs := by
  unfold decode at h
  obtain ⟨a, ha, rfl⟩ := Option.map_eq_some_iff.1 h
  have hsome : bs.toByteArray.utf8Decode?.isSome := by rw [ha]; rfl
  have hget : bs.toByteArray.utf8Decode?.get hsome = a := by simp [ha]
  have hcode := ByteArray.utf8Encode_get_utf8Decode? (h := hsome)
  rw [hget, ← toByteArray_encode] at hcode
  exact List.toByteArray_inj.1 hcode

/-- **The decoder undoes the encoder, and reads nothing else.** -/
theorem decode_eq_some_iff {bs : Bytes} {t : Text} : decode bs = some t ↔ bs = encode t := by
  constructor
  · exact fun h => (encode_of_decode h).symm
  · rintro rfl
    exact decode_encode t

theorem encode_injective : Function.Injective encode := by
  intro s t h
  have hs := decode_encode s
  rw [h, decode_encode] at hs
  exact (Option.some.inj hs).symm

/-! ## A prefix code -/

/-- A code that begins with a code is cut between two characters there. -/
theorem encode_eq_append_iff {t p : Text} {bs : Bytes} :
    encode t = encode p ++ bs ↔ ∃ s, t = p ++ s ∧ bs = encode s := by
  constructor
  · intro h
    have hdec := decode_encode_append p bs
    rw [← h, decode_encode] at hdec
    obtain ⟨s, hs, rfl⟩ := Option.map_eq_some_iff.1 hdec.symm
    exact ⟨s, rfl, decode_eq_some_iff.1 hs⟩
  · rintro ⟨s, rfl, rfl⟩
    exact encode_append p s

/-- **UTF-8 is a prefix code.** -/
theorem encode_prefix_iff {p t : Text} : encode p <+: encode t ↔ p <+: t := by
  constructor
  · rintro ⟨bs, hbs⟩
    obtain ⟨s, rfl, -⟩ := encode_eq_append_iff.1 hbs.symm
    exact List.prefix_append p s
  · rintro ⟨s, rfl⟩
    rw [encode_append]
    exact List.prefix_append (encode p) (encode s)

/-- `p` is the longest prefix of `t` whose code the bytes `bs` begin with. -/
structure LongestPrefix (t : Text) (bs : Bytes) (p : Text) : Prop where
  isPrefix : p <+: t
  received : encode p <+: bs
  longest : ∀ q, q <+: t → encode q <+: bs → q <+: p

theorem LongestPrefix.unique {t p q : Text} {bs : Bytes} (hp : LongestPrefix t bs p)
    (hq : LongestPrefix t bs q) : p = q := by
  have hpq : p <+: q := hq.longest p hp.isPrefix hp.received
  have hqp : q <+: p := hp.longest q hq.isPrefix hq.received
  exact hpq.eq_of_length (le_antisymm hpq.length_le hqp.length_le)

/-- Where no character is cut, everything that was received is known. -/
theorem longestPrefix_encode {t p : Text} (h : p <+: t) : LongestPrefix t (encode p) p :=
  ⟨h, List.prefix_refl _, fun _ _ hq => encode_prefix_iff.1 hq⟩

/-! ## Single bytes -/

/-- A character of the 7-bit range. -/
def isAscii (c : Char) : Bool := c.val ≤ 127

theorem length_encode_singleton (c : Char) : (encode [c]).length = c.utf8Size := by
  unfold encode
  rw [List.flatMap_singleton, String.length_utf8EncodeChar]

theorem length_encode_singleton_eq_one_iff {c : Char} :
    (encode [c]).length = 1 ↔ isAscii c = true := by
  rw [length_encode_singleton, Char.utf8Size_eq_one_iff]
  unfold isAscii
  exact decide_eq_true_iff.symm

/-- A single byte that can be decoded is a character of the 7-bit range. -/
theorem decode_singleton_eq_some {b : UInt8} {t : Text} (h : decode [b] = some t) :
    ∃ c, t = [c] ∧ isAscii c = true ∧ encode [c] = [b] := by
  have hcode : encode t = [b] := encode_of_decode h
  cases t with
  | nil => simp at hcode
  | cons c t =>
    rw [encode_cons] at hcode
    have hpos := List.length_pos_iff.2 (encode_singleton_ne_nil c)
    have hlen := congrArg List.length hcode
    rw [List.length_append, List.length_singleton] at hlen
    have hnil : encode t = [] := List.length_eq_zero_iff.1 (by omega)
    obtain rfl := encode_eq_nil_iff.1 hnil
    rw [encode_nil, List.append_nil] at hcode
    exact ⟨c, rfl, length_encode_singleton_eq_one_iff.1 (by omega), hcode⟩

/-- A character of the 7-bit range is a single byte. -/
theorem encode_singleton_of_isAscii {c : Char} (h : isAscii c = true) : ∃ b, encode [c] = [b] :=
  List.length_eq_one_iff.1 (length_encode_singleton_eq_one_iff.2 h)

/-- **Texts that can be decoded byte by byte.** -/
theorem forall_isAscii_iff {t : Text} :
    (∀ c ∈ t, isAscii c = true) ↔ ∀ b ∈ encode t, (decode [b]).isSome := by
  induction t with
  | nil => simp
  | cons c t ih =>
    rw [List.forall_mem_cons, encode_cons, List.forall_mem_append, ih]
    refine and_congr_left fun _ => ?_
    constructor
    · intro hc b hb
      obtain ⟨b', hb'⟩ := encode_singleton_of_isAscii hc
      rw [hb', List.mem_singleton] at hb
      rw [hb, ← hb', decode_encode]
      rfl
    · intro hall
      -- the first byte is a character of its own, so it is all of `c`
      obtain ⟨b, bs, hbs⟩ := List.exists_cons_of_ne_nil (encode_singleton_ne_nil c)
      obtain ⟨s, hs⟩ := Option.isSome_iff_exists.1 (hall b (by simp [hbs]))
      obtain ⟨d, rfl, hd, hcode⟩ := decode_singleton_eq_some hs
      have hcut : encode [c] = encode [d] ++ bs := by
        rw [hbs, hcode]
        rfl
      obtain ⟨rest, hrest, -⟩ := encode_eq_append_iff.1 hcut
      obtain ⟨rfl, -⟩ := List.cons.inj hrest
      exact hd

end MiniWorld.Lib
