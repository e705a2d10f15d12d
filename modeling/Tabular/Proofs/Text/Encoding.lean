import Tabular.Text.Encoding

/-!
# Reading what was encoded

The UTF-8 form of a text is read back as its characters, none of them damaged.
-/
namespace Tabular.Text

theorem decodeFrom_utf8Encode (front : ByteArray) (cs : List Char) :
    decodeFrom (front ++ cs.utf8Encode) front.size = cs.map some := by
  induction cs generalizing front with
  | nil =>
    rw [decodeFrom, dif_neg (by simp)]
    rfl
  | cons c cs ih =>
    have hchar : (front ++ (c :: cs).utf8Encode).utf8DecodeChar? front.size = some c := by
      rw [ByteArray.utf8DecodeChar?_eq_utf8DecodeChar?_extract]
      simp [ByteArray.extract_append_eq_right, List.utf8DecodeChar?_utf8Encode_cons]
    have hsize : [c].utf8Encode.size = c.utf8Size := by simp [List.utf8Encode_singleton]
    have hnext : front ++ (c :: cs).utf8Encode = (front ++ [c].utf8Encode) ++ cs.utf8Encode := by
      rw [List.utf8Encode_cons, ByteArray.append_assoc]
    have hpos := c.utf8Size_pos
    rw [decodeFrom, dif_pos (by rw [hnext]; simp only [ByteArray.size_append]; omega), hchar]
    dsimp only
    rw [List.map_cons, ← ih (front ++ [c].utf8Encode), hnext, ByteArray.size_append, hsize]

/-- Nothing is lost or damaged between writing a text as bytes and reading it. -/
@[simp] theorem decode_toUTF8 (s : String) : decode s.toUTF8 = s.toList.map some := by
  have h := decodeFrom_utf8Encode .empty s.toList
  rwa [ByteArray.empty_append, String.utf8Encode_toList] at h

@[simp] theorem text?_map_some (cs : List Char) : text? (cs.map some) = some cs := by
  have hsome : (cs.map some).mapM id = some cs := by
    rw [List.mapM_map]
    exact (List.mapM_pure (m := Option)).trans (congrArg some (List.map_id cs))
  rw [text?, hsome]

end Tabular.Text
