import Mathlib.Data.List.Basic

/-!
# Base64url

The bytes of a text and the URL-safe base64 encoding without padding.  Three
bytes become four characters, so the encoding of a sequence whose first part
is a whole number of such groups begins with the encoding of that part.
-/

namespace TmsApi.Core.Base64

/-! ## The bytes of a text -/

/-- The UTF-8 encoding. -/
def utf8 (text : String) : List UInt8 :=
  text.toByteArray.data.toList

@[simp]
theorem utf8_append (first second : String) :
    utf8 (first ++ second) = utf8 first ++ utf8 second := by
  simp [utf8]

theorem length_le_length_utf8 (text : String) :
    text.length ≤ (utf8 text).length := by
  rcases text.exists_eq_ofList with ⟨characters, rfl⟩
  rw [String.length_ofList]
  induction characters with
  | nil => exact Nat.zero_le _
  | cons c rest ih =>
      have apart : String.ofList (c :: rest) =
          String.singleton c ++ String.ofList rest := by
        simp [String.ofList_cons]
      have one : 0 < (utf8 (String.singleton c)).length := by
        have size := c.utf8Size_pos
        rw [← String.utf8ByteSize_singleton] at size
        exact size
      rw [apart, utf8_append, List.length_append, List.length_cons]
      omega

/-! ## The encoding -/

/-- The 64 digits. -/
def alphabet : List Char :=
  "ABCDEFGHIJKLMNOPQRSTUVWXYZabcdefghijklmnopqrstuvwxyz0123456789-_".toList

def digit (n : Nat) : Char := alphabet.getD n 'A'

theorem digit_mem (n : Nat) : digit n ∈ alphabet := by
  have default : 'A' ∈ alphabet := by decide +kernel
  by_cases inside : n < alphabet.length
  · simp [digit, inside]
  · simpa [digit, Nat.not_lt.mp inside] using default

/-- The encoding, three bytes at a time. -/
def url : List UInt8 → List Char
  | a :: b :: c :: rest =>
      digit (a.toNat / 4) ::
        digit (a.toNat % 4 * 16 + b.toNat / 16) ::
        digit (b.toNat % 16 * 4 + c.toNat / 64) ::
        digit (c.toNat % 64) :: url rest
  | [a, b] =>
      [digit (a.toNat / 4), digit (a.toNat % 4 * 16 + b.toNat / 16),
        digit (b.toNat % 16 * 4)]
  | [a] => [digit (a.toNat / 4), digit (a.toNat % 4 * 16)]
  | [] => []

theorem mem_url {bytes : List UInt8} {c : Char} (member : c ∈ url bytes) :
    c ∈ alphabet := by
  induction bytes using url.induct with
  | case1 x y z rest ih =>
      simp only [url, List.mem_cons] at member
      rcases member with rfl | rfl | rfl | rfl | later
      · exact digit_mem _
      · exact digit_mem _
      · exact digit_mem _
      · exact digit_mem _
      · exact ih later
  | case2 x y =>
      simp only [url, List.mem_cons, List.not_mem_nil, or_false] at member
      rcases member with rfl | rfl | rfl <;> exact digit_mem _
  | case3 x =>
      simp only [url, List.mem_cons, List.not_mem_nil, or_false] at member
      rcases member with rfl | rfl <;> exact digit_mem _
  | case4 => simp [url] at member

theorem exists_group {groups : Nat} {bytes : List UInt8}
    (whole : bytes.length = 3 * (groups + 1)) :
    ∃ x y z rest, bytes = x :: y :: z :: rest ∧ rest.length = 3 * groups := by
  rcases bytes with _ | ⟨x, _ | ⟨y, _ | ⟨z, rest⟩⟩⟩
  · simp at whole
  · simp only [List.length_cons, List.length_nil] at whole
    omega
  · simp only [List.length_cons, List.length_nil] at whole
    omega
  · simp only [List.length_cons] at whole
    exact ⟨x, y, z, rest, rfl, by omega⟩

/-- Whole groups are encoded on their own. -/
theorem url_append {groups : Nat} {first : List UInt8}
    (whole : first.length = 3 * groups) (rest : List UInt8) :
    url (first ++ rest) = url first ++ url rest := by
  induction groups generalizing first with
  | zero =>
      cases List.length_eq_zero_iff.mp whole
      rfl
  | succ groups ih =>
      rcases exists_group whole with ⟨x, y, z, more, rfl, shorter⟩
      simp [url, ih shorter]

theorem length_url {groups : Nat} {bytes : List UInt8}
    (whole : bytes.length = 3 * groups) :
    (url bytes).length = 4 * groups := by
  induction groups generalizing bytes with
  | zero =>
      cases List.length_eq_zero_iff.mp whole
      rfl
  | succ groups ih =>
      rcases exists_group whole with ⟨x, y, z, more, rfl, shorter⟩
      simp only [url, List.length_cons, ih shorter]
      omega

end TmsApi.Core.Base64
