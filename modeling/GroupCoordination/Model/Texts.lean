import Mathlib.Data.List.DropRight

/-!
# Texts

`strings.TrimSpace` and `strings.ToLower`. Both go by the code points of Unicode; what `ToLower`
makes of a capital letter beyond ASCII is in the tables below.
-/

namespace GroupCoordination

/-- `unicode.IsSpace`. -/
def isSpace (c : Char) : Bool :=
  c.toNat ∈ [32, 0x85, 0xA0, 0x1680, 0x2028, 0x2029, 0x202F, 0x205F, 0x3000] ∨
    9 ≤ c.toNat ∧ c.toNat ≤ 13 ∨ 0x2000 ≤ c.toNat ∧ c.toNat ≤ 0x200A

def trimSpace (text : String) : String :=
  String.ofList ((text.toList.dropWhile isSpace).reverse.dropWhile isSpace).reverse

theorem trimSpace_idem (text : String) : trimSpace (trimSpace text) = trimSpace text := by
  have htrim : ∀ text, trimSpace text =
      String.ofList ((text.toList.dropWhile isSpace).rdropWhile isSpace) :=
    fun _ => rfl
  rw [htrim, htrim text, String.toList_ofList]
  -- what is left starts where the first trim started
  have hfront : ((text.toList.dropWhile isSpace).rdropWhile isSpace).dropWhile isSpace =
      (text.toList.dropWhile isSpace).rdropWhile isSpace := by
    rw [List.dropWhile_eq_self_iff]
    intro hpos
    rw [(List.rdropWhile_prefix isSpace _).getElem hpos]
    exact List.dropWhile_get_zero_not _ _ _
  rw [hfront, List.rdropWhile_idempotent]

/-- Capital letters that have their small letters at one distance: the first, the last, the step
from one to the next, and the distance. -/
def capitalRanges : List (Nat × Nat × Nat × Int) :=
  [(192, 214, 1, 32), (216, 222, 1, 32), (256, 302, 2, 1), (306, 310, 2, 1), (313, 327, 2, 1),
    (330, 374, 2, 1), (377, 381, 2, 1), (386, 388, 2, 1), (393, 394, 1, 205), (416, 420, 2, 1),
    (433, 434, 1, 217), (435, 437, 2, 1), (459, 475, 2, 1), (478, 494, 2, 1), (498, 500, 2, 1),
    (504, 542, 2, 1), (546, 562, 2, 1), (582, 590, 2, 1), (880, 882, 2, 1), (904, 906, 1, 37),
    (910, 911, 1, 63), (913, 929, 1, 32), (931, 939, 1, 32), (984, 1006, 2, 1),
    (1021, 1023, 1, -130), (1024, 1039, 1, 80), (1040, 1071, 1, 32), (1120, 1152, 2, 1),
    (1162, 1214, 2, 1), (1217, 1229, 2, 1), (1232, 1326, 2, 1), (1329, 1366, 1, 48),
    (4256, 4293, 1, 7264), (5024, 5103, 1, 38864), (5104, 5109, 1, 8), (7312, 7354, 1, -3008),
    (7357, 7359, 1, -3008), (7680, 7828, 2, 1), (7840, 7934, 2, 1), (7944, 7951, 1, -8),
    (7960, 7965, 1, -8), (7976, 7983, 1, -8), (7992, 7999, 1, -8), (8008, 8013, 1, -8),
    (8025, 8031, 2, -8), (8040, 8047, 1, -8), (8072, 8079, 1, -8), (8088, 8095, 1, -8),
    (8104, 8111, 1, -8), (8120, 8121, 1, -8), (8122, 8123, 1, -74), (8136, 8139, 1, -86),
    (8152, 8153, 1, -8), (8154, 8155, 1, -100), (8168, 8169, 1, -8), (8170, 8171, 1, -112),
    (8184, 8185, 1, -128), (8186, 8187, 1, -126), (8544, 8559, 1, 16), (9398, 9423, 1, 26),
    (11264, 11311, 1, 48), (11367, 11371, 2, 1), (11390, 11391, 1, -10815), (11392, 11490, 2, 1),
    (11499, 11501, 2, 1), (42560, 42604, 2, 1), (42624, 42650, 2, 1), (42786, 42798, 2, 1),
    (42802, 42862, 2, 1), (42873, 42875, 2, 1), (42878, 42886, 2, 1), (42896, 42898, 2, 1),
    (42902, 42920, 2, 1), (42932, 42946, 2, 1), (42951, 42953, 2, 1), (42966, 42968, 2, 1),
    (65313, 65338, 1, 32), (66560, 66599, 1, 40), (66736, 66771, 1, 40), (66928, 66938, 1, 39),
    (66940, 66954, 1, 39), (66956, 66962, 1, 39), (66964, 66965, 1, 39), (68736, 68786, 1, 64),
    (71840, 71871, 1, 32), (93760, 93791, 1, 32), (125184, 125217, 1, 34)]

/-- The other capital letters beyond ASCII, each with the distance of its small letter. -/
def capitalLetters : List (Nat × Int) :=
  [(304, -199), (376, -121), (385, 210), (390, 206), (391, 1), (395, 1), (398, 79), (399, 202),
    (400, 203), (401, 1), (403, 205), (404, 207), (406, 211), (407, 209), (408, 1), (412, 211),
    (413, 213), (415, 214), (422, 218), (423, 1), (425, 218), (428, 1), (430, 218), (431, 1),
    (439, 219), (440, 1), (444, 1), (452, 2), (453, 1), (455, 2), (456, 1), (458, 2), (497, 2),
    (502, -97), (503, -56), (544, -130), (570, 10795), (571, 1), (573, -163), (574, 10792),
    (577, 1), (579, -195), (580, 69), (581, 71), (886, 1), (895, 116), (902, 38), (908, 64),
    (975, 8), (1012, -60), (1015, 1), (1017, -7), (1018, 1), (1216, 15), (4295, 7264), (4301, 7264),
    (7838, -7615), (8124, -9), (8140, -9), (8172, -7), (8188, -9), (8486, -7517), (8490, -8383),
    (8491, -8262), (8498, 28), (8579, 1), (11360, 1), (11362, -10743), (11363, -3814),
    (11364, -10727), (11373, -10780), (11374, -10749), (11375, -10783), (11376, -10782), (11378, 1),
    (11381, 1), (11506, 1), (42877, -35332), (42891, 1), (42893, -42280), (42922, -42308),
    (42923, -42319), (42924, -42315), (42925, -42305), (42926, -42308), (42928, -42258),
    (42929, -42282), (42930, -42261), (42931, 928), (42948, -48), (42949, -42307), (42950, -35384),
    (42960, 1), (42997, 1)]

/-- How far the small letter of a code point beyond ASCII is. -/
def lowerDistance (n : Nat) : Int :=
  match capitalRanges.find? fun (first, last, step, _) =>
      first ≤ n ∧ n ≤ last ∧ (n - first) % step = 0 with
  | some (_, _, _, distance) => distance
  | none => (capitalLetters.lookup n).getD 0

/-- `unicode.ToLower`. -/
def lowerRune (c : Char) : Char :=
  if c.toNat < 128 then c.toLower else Char.ofNat (c.toNat + lowerDistance c.toNat).toNat

def toLower (text : String) : String := String.ofList (text.toList.map lowerRune)

example : toLower "ÀĀΣЖ\u212A" = "àāσжk" := by decide +kernel

end GroupCoordination
