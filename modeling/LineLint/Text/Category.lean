/-
**The character categories the linter distinguishes.**

Every code point has one category: letters, the kinds of numbers and marks, connecting punctuation,
everything else that is visible, and what a report never shows as it stands (controls, format
characters, separators, unassigned and private code points).  The data are the general categories
of Unicode 14, stored as the places where the category changes.

Main definitions:

* `LineLint.Text.Category.of` — the category of a code point;
* `LineLint.Text.isWord`, `LineLint.Text.isDecimal`, `LineLint.Text.isLetter` — the classes that
  patterns refer to;
* `LineLint.Text.isVisible` — the characters that quoted text shows as they stand;
* `LineLint.Text.isName` — the texts that can name a group of a pattern.
-/

import LineLint.Text.Boundary

set_option relaxedAutoImplicit false
set_option autoImplicit false

namespace LineLint.Text

/-- The category of a code point, as far as patterns and quoted text tell code points apart. -/
inductive Category where
  /-- A letter of any script. -/
  | letter
  /-- A decimal digit of any script. -/
  | decimal
  /-- A number written with letters, such as a Roman numeral. -/
  | letterNumber
  /-- Any other number: superscripts, fractions, enclosed numbers. -/
  | otherNumber
  /-- A non-spacing mark. -/
  | mark
  /-- A spacing mark. -/
  | spacingMark
  /-- Connecting punctuation, such as the low line. -/
  | connector
  /-- A control, format or private character, a separator other than the space, or unassigned. -/
  | hidden
  /-- Any other visible character, and the space. -/
  | visible
  deriving DecidableEq, Repr

namespace Category

/-- The category with a given number in the table of runs. -/
def ofIndex : Nat → Category
  | 0 => letter
  | 1 => decimal
  | 2 => letterNumber
  | 3 => otherNumber
  | 4 => mark
  | 5 => spacingMark
  | 6 => connector
  | 7 => hidden
  | _ => visible

/-- The runs that begin below U+0B00, in ascending order: sixteen times the first code
point of the run, plus the number of its category. -/
def lowRuns : Array Nat := #[
  7, 520, 769, 936, 1040, 1464, 1526, 1544, 1552, 1976, 2039, 2584, 2720, 2744, 2775, 2792, 2851,
  2888, 2896, 2920, 2963, 2976, 3000, 3011, 3064, 3072, 3448, 3456, 3960, 3968, 11304, 11360,
  11560, 11776, 11864, 11968, 11992, 12000, 12024, 12292, 14080, 14168, 14176, 14215, 14240,
  14312, 14320, 14343, 14408, 14432, 14456, 14464, 14519, 14528, 14551, 14560, 14887, 14896,
  16232, 16240, 18472, 18484, 18568, 18592, 21255, 21264, 21879, 21904, 21928, 22016, 22680,
  22711, 22744, 22791, 22804, 23528, 23540, 23560, 23572, 23608, 23620, 23656, 23668, 23687,
  23808, 24247, 24304, 24376, 24407, 24680, 24836, 25016, 25031, 25048, 25088, 25780, 26113,
  26280, 26336, 26372, 26384, 27976, 27984, 28004, 28119, 28136, 28148, 28240, 28276, 28312,
  28324, 28384, 28417, 28576, 28632, 28656, 28680, 28903, 28928, 28948, 28960, 29444, 29879,
  29904, 31332, 31504, 31527, 31745, 31904, 32436, 32576, 32616, 32672, 32695, 32724, 32744,
  32768, 33124, 33184, 33204, 33344, 33364, 33408, 33428, 33511, 33544, 33783, 33792, 34196,
  34247, 34280, 34295, 34304, 34487, 34560, 34952, 34960, 35063, 35204, 35328, 36004, 36391,
  36404, 36917, 36928, 37796, 37813, 37828, 37840, 37861, 37908, 38037, 38100, 38117, 38144,
  38164, 38272, 38436, 38472, 38497, 38664, 38672, 38932, 38949, 38983, 38992, 39127, 39152,
  39191, 39216, 39575, 39584, 39703, 39712, 39735, 39776, 39847, 39876, 39888, 39909, 39956,
  40023, 40053, 40087, 40117, 40148, 40160, 40183, 40309, 40327, 40384, 40423, 40432, 40484,
  40519, 40545, 40704, 40744, 40771, 40872, 40896, 40920, 40932, 40951, 40980, 41013, 41031,
  41040, 41143, 41200, 41239, 41264, 41623, 41632, 41751, 41760, 41799, 41808, 41847, 41856,
  41895, 41924, 41943, 41957, 42004, 42039, 42100, 42135, 42164, 42215, 42260, 42279, 42384,
  42455, 42464, 42487, 42593, 42756, 42784, 42836, 42856, 42871, 43028, 43061, 43079, 43088,
  43239, 43248, 43303, 43312, 43671, 43680, 43799, 43808, 43847, 43856, 43943, 43972, 43984,
  44005, 44052, 44135, 44148, 44181, 44199, 44213, 44244, 44263, 44288, 44311, 44544, 44580,
  44615, 44641, 44808, 44839, 44944, 44964
]

/-- The runs that begin from U+0B00 to U+1FFF, written in the same way. -/
def scriptRuns : Array Nat := #[
  45063, 45076, 45093, 45127, 45136, 45271, 45296, 45335, 45360, 45719, 45728, 45847, 45856,
  45895, 45904, 45991, 46020, 46032, 46053, 46068, 46085, 46100, 46167, 46197, 46231, 46261,
  46292, 46311, 46420, 46453, 46471, 46528, 46567, 46576, 46628, 46663, 46689, 46856, 46864,
  46883, 46983, 47140, 47152, 47175, 47184, 47287, 47328, 47383, 47392, 47463, 47504, 47543,
  47552, 47575, 47584, 47623, 47664, 47703, 47744, 47799, 47840, 48039, 48101, 48132, 48149,
  48183, 48229, 48279, 48293, 48340, 48359, 48384, 48407, 48501, 48519, 48737, 48899, 48952,
  49079, 49156, 49173, 49220, 49232, 49367, 49376, 49431, 49440, 49815, 49824, 50087, 50116,
  50128, 50148, 50197, 50263, 50276, 50327, 50340, 50407, 50516, 50551, 50560, 50615, 50640,
  50663, 50688, 50724, 50759, 50785, 50951, 51064, 51075, 51192, 51200, 51220, 51237, 51272,
  51280, 51415, 51424, 51479, 51488, 51863, 51872, 52039, 52048, 52135, 52164, 52176, 52197,
  52212, 52229, 52311, 52324, 52341, 52375, 52389, 52420, 52455, 52565, 52599, 52688, 52727,
  52736, 52772, 52807, 52833, 52999, 53008, 53047, 53252, 53285, 53312, 53463, 53472, 53527,
  53536, 54196, 54224, 54245, 54292, 54359, 54373, 54423, 54437, 54484, 54496, 54520, 54535,
  54592, 54645, 54659, 54768, 54820, 54855, 54881, 55043, 55192, 55200, 55303, 55316, 55333,
  55367, 55376, 55671, 55712, 56103, 56112, 56263, 56272, 56295, 56320, 56439, 56484, 56503,
  56565, 56612, 56663, 56676, 56695, 56709, 56839, 56929, 57095, 57125, 57160, 57175, 57360,
  58132, 58144, 58180, 58295, 58360, 58368, 58484, 58616, 58625, 58792, 58823, 59408, 59447,
  59456, 59479, 59488, 59575, 59584, 59975, 59984, 60007, 60016, 60180, 60192, 60228, 60368,
  60391, 60416, 60503, 60512, 60535, 60548, 60647, 60673, 60839, 60864, 60935, 61440, 61464,
  61828, 61864, 61953, 62115, 62280, 62292, 62312, 62324, 62344, 62356, 62376, 62437, 62464,
  62599, 62608, 63191, 63252, 63477, 63492, 63576, 63588, 63616, 63700, 63879, 63892, 64471,
  64488, 64612, 64632, 64727, 64744, 64951, 65536, 66229, 66260, 66325, 66340, 66437, 66452,
  66485, 66516, 66544, 66561, 66728, 66816, 66917, 66948, 66976, 67044, 67088, 67109, 67152,
  67189, 67296, 67348, 67408, 67620, 67637, 67668, 67701, 67796, 67808, 67829, 67841, 68005,
  68052, 68072, 68096, 68711, 68720, 68743, 68816, 68839, 68864, 69560, 69568, 74903, 74912,
  74983, 75008, 75127, 75136, 75159, 75168, 75239, 75264, 75927, 75936, 76007, 76032, 76567,
  76576, 76647, 76672, 76791, 76800, 76823, 76832, 76903, 76928, 77175, 77184, 78103, 78112,
  78183, 78208, 79287, 79316, 79368, 79507, 79831, 79872, 80136, 80295, 80384, 81767, 81792,
  81895, 81928, 81936, 91864, 91888, 92167, 92176, 92600, 92631, 92672, 93880, 93922, 93968,
  94103, 94208, 94500, 94549, 94567, 94704, 95012, 95045, 95064, 95095, 95232, 95524, 95559,
  95744, 95959, 95968, 96023, 96036, 96071, 96256, 97092, 97125, 97140, 97253, 97380, 97397,
  97428, 97608, 97648, 97672, 97728, 97748, 97767, 97793, 97959, 98051, 98215, 98312, 98484,
  98535, 98548, 98561, 98727, 98816, 100247, 100352, 100436, 100464, 101012, 101024, 101047,
  101120, 102247, 102400, 102903, 102916, 102965, 103028, 103061, 103111, 103173, 103204, 103221,
  103316, 103367, 103432, 103447, 103496, 103521, 103680, 104167, 104192, 104279, 104448, 105159,
  105216, 105639, 105729, 105891, 105911, 105960, 106496, 106868, 106901, 106932, 106951, 106984,
  107008, 107861, 107876, 107893, 107908, 108023, 108036, 108053, 108068, 108085, 108116, 108245,
  108340, 108503, 108532, 108545, 108711, 108801, 108967, 109064, 109168, 109192, 109287, 109316,
  109544, 109556, 109815, 110596, 110661, 110672, 111428, 111445, 111460, 111541, 111556, 111573,
  111652, 111669, 111696, 111831, 111873, 112040, 112308, 112456, 112631, 112644, 112677, 112688,
  113173, 113188, 113253, 113284, 113317, 113332, 113376, 113409, 113568, 114276, 114293, 114308,
  114341, 114388, 114405, 114420, 114469, 114503, 114632, 114688, 115269, 115396, 115525, 115556,
  115591, 115640, 115713, 115879, 115920, 115969, 116128, 116712, 116736, 116887, 116992, 117687,
  117712, 117768, 117895, 118020, 118072, 118084, 118293, 118308, 118416, 118484, 118496, 118596,
  118608, 118645, 118660, 118688, 118711, 118784, 121860, 122880, 127335, 127360, 127463, 127488,
  128103, 128128, 128231, 128256, 128391, 128400, 128423, 128432, 128455, 128464, 128487, 128496,
  128999, 129024, 129879, 129888, 130008, 130016, 130040, 130080, 130135, 130144, 130264, 130304,
  130375, 130400, 130503, 130520, 130560, 130776, 130823, 130848, 130903, 130912, 131032, 131063
]

/-- The runs that begin from U+2000 to U+FFFF, written in the same way. -/
def symbolRuns : Array Nat := #[
  131336, 131719, 131848, 132086, 132120, 132422, 132440, 132599, 132867, 132880, 132903, 132931,
  133032, 133104, 133123, 133288, 133367, 133376, 133591, 133640, 134167, 134404, 134616, 134676,
  134696, 134740, 134935, 135176, 135200, 135224, 135280, 135304, 135328, 135496, 135504, 135528,
  135568, 135656, 135744, 135768, 135776, 135800, 135808, 135832, 135840, 135912, 135920, 136104,
  136128, 136200, 136272, 136360, 136416, 136440, 136451, 136706, 137264, 137298, 137363, 137384,
  137415, 137480, 148087, 148488, 148663, 148995, 149960, 151203, 151560, 161635, 162120, 177991,
  178024, 178535, 178552, 180224, 183896, 183984, 184052, 184096, 184135, 184216, 184275, 184296,
  184320, 184935, 184944, 184967, 185040, 185063, 185088, 185991, 186096, 186120, 186135, 186356,
  186368, 186743, 186880, 186999, 187008, 187127, 187136, 187255, 187264, 187383, 187392, 187511,
  187520, 187639, 187648, 187767, 187776, 187895, 187908, 188424, 189168, 189192, 189927, 190472,
  190887, 190904, 192327, 192520, 195943, 196360, 196551, 196632, 196688, 196722, 196744, 197138,
  197284, 197349, 197384, 197392, 197480, 197506, 197552, 197592, 197639, 197648, 199031, 199060,
  199096, 199120, 199176, 199184, 200632, 200640, 200711, 200784, 201479, 201488, 202999, 203016,
  203043, 203112, 203264, 203784, 204359, 204544, 204808, 205303, 205315, 205480, 205955, 206088,
  206099, 206344, 206851, 207016, 207635, 207880, 212992, 318472, 319488, 674007, 674056, 674935,
  675072, 675816, 675840, 680152, 680192, 680449, 680608, 680647, 680960, 681716, 681736, 681796,
  681960, 681968, 682468, 682496, 683618, 683780, 683816, 683911, 684040, 684400, 684552, 684576,
  686232, 686256, 687287, 687360, 687399, 687408, 687431, 687440, 687527, 687904, 688164, 688176,
  688228, 688240, 688308, 688320, 688693, 688724, 688757, 688776, 688836, 688855, 688899, 689000,
  689063, 689152, 689992, 690055, 690181, 690208, 691013, 691268, 691303, 691432, 691457, 691623,
  691716, 692000, 692104, 692144, 692168, 692176, 692212, 692225, 692384, 692836, 692968, 692992,
  693364, 693541, 693575, 693752, 693760, 694231, 694276, 694325, 694336, 695092, 695109, 695140,
  695205, 695236, 695269, 695320, 695527, 695536, 695553, 695719, 695784, 695808, 695892, 695904,
  696065, 696224, 696311, 696320, 696980, 697077, 697108, 697141, 697172, 697207, 697344, 697396,
  697408, 697540, 697557, 697575, 697601, 697767, 697800, 697856, 698232, 698272, 698293, 698308,
  698325, 698336, 699140, 699152, 699172, 699216, 699252, 699280, 699364, 699392, 699412, 699424,
  699447, 699824, 699880, 699904, 700085, 700100, 700133, 700168, 700192, 700245, 700260, 700279,
  700432, 700535, 700560, 700663, 700688, 700791, 700928, 701047, 701056, 701175, 701184, 701880,
  701888, 702120, 702151, 702208, 704053, 704084, 704101, 704132, 704149, 704184, 704197, 704212,
  704231, 704257, 704423, 704512, 883271, 883456, 883831, 883888, 884679, 1019904, 1025767,
  1025792, 1027495, 1028096, 1028215, 1028400, 1028487, 1028560, 1028580, 1028592, 1028760,
  1028768, 1028983, 1028992, 1029079, 1029088, 1029111, 1029120, 1029159, 1029168, 1029207,
  1029216, 1030952, 1031223, 1031472, 1037288, 1037568, 1038599, 1038624, 1039495, 1039608,
  1039623, 1040128, 1040328, 1040388, 1040648, 1040807, 1040900, 1041160, 1041206, 1041240,
  1041622, 1041672, 1041719, 1041736, 1042039, 1042056, 1042119, 1042176, 1042263, 1042272,
  1044439, 1044504, 1044737, 1044904, 1045008, 1045432, 1045494, 1045512, 1045520, 1045944,
  1046112, 1047543, 1047584, 1047687, 1047712, 1047815, 1047840, 1047943, 1047968, 1048023,
  1048072, 1048183, 1048200, 1048311, 1048520, 1048551
]

/-- The runs that begin from U+10000 to U+11FFF, written in the same way. -/
def ancientRuns : Array Nat := #[
  1048576, 1048775, 1048784, 1049207, 1049216, 1049527, 1049536, 1049575, 1049584, 1049831,
  1049856, 1050087, 1050624, 1052599, 1052680, 1052727, 1052787, 1053511, 1053560, 1053698,
  1054547, 1054616, 1054883, 1054920, 1054967, 1054984, 1055191, 1055240, 1055255, 1056008,
  1056724, 1056743, 1058816, 1059287, 1059328, 1060119, 1060356, 1060371, 1060807, 1060864,
  1061379, 1061447, 1061584, 1061906, 1061920, 1062050, 1062071, 1062144, 1062756, 1062839,
  1062912, 1063399, 1063416, 1063424, 1064007, 1064064, 1064200, 1064210, 1064295, 1064960,
  1067495, 1067521, 1067687, 1067776, 1068359, 1068416, 1068999, 1069056, 1069703, 1069824,
  1070663, 1070840, 1070848, 1071031, 1071040, 1071287, 1071296, 1071415, 1071424, 1071463,
  1071472, 1071655, 1071664, 1071911, 1071920, 1072039, 1072048, 1072087, 1073152, 1078135,
  1078272, 1078631, 1078784, 1078919, 1079296, 1079399, 1079408, 1080087, 1080096, 1080247,
  1081344, 1081447, 1081472, 1081495, 1081504, 1082215, 1082224, 1082263, 1082304, 1082327,
  1082352, 1082727, 1082744, 1082755, 1082880, 1083256, 1083283, 1083392, 1083895, 1084019,
  1084167, 1084928, 1085239, 1085248, 1085287, 1085363, 1085440, 1085795, 1085895, 1085944,
  1085952, 1086375, 1086456, 1086471, 1087488, 1088391, 1088451, 1088480, 1088515, 1088775,
  1088803, 1089536, 1089556, 1089607, 1089620, 1089655, 1089732, 1089792, 1089863, 1089872,
  1089927, 1089936, 1090407, 1090436, 1090487, 1090548, 1090563, 1090711, 1090824, 1090967,
  1091072, 1091539, 1091576, 1091584, 1092051, 1092103, 1092608, 1092744, 1092752, 1093204,
  1093239, 1093299, 1093384, 1093495, 1093632, 1094503, 1094552, 1094656, 1095015, 1095043,
  1095168, 1095479, 1095555, 1095680, 1095975, 1096088, 1096151, 1096339, 1096455, 1097728,
  1098903, 1099776, 1100599, 1100800, 1101623, 1101731, 1101824, 1102404, 1102471, 1102593,
  1102759, 1107459, 1107959, 1107968, 1108647, 1108660, 1108696, 1108711, 1108736, 1108775,
  1110016, 1110483, 1110640, 1110663, 1110784, 1111140, 1111315, 1111384, 1111463, 1111808,
  1112100, 1112168, 1112231, 1112832, 1113171, 1113287, 1113600, 1113975, 1114117, 1114132,
  1114149, 1114160, 1115012, 1115256, 1115367, 1115427, 1115745, 1115908, 1115920, 1115956,
  1115984, 1116007, 1116148, 1116197, 1116208, 1116933, 1116980, 1117045, 1117076, 1117112,
  1117143, 1117160, 1117220, 1117239, 1117440, 1117847, 1117953, 1118119, 1118212, 1118256,
  1118836, 1118917, 1118932, 1119063, 1119073, 1119240, 1119296, 1119317, 1119344, 1119367,
  1119488, 1120052, 1120072, 1120096, 1120119, 1120260, 1120293, 1120304, 1121077, 1121124,
  1121269, 1121296, 1121368, 1121428, 1121496, 1121509, 1121524, 1121537, 1121696, 1121720,
  1121728, 1121752, 1121799, 1121811, 1122135, 1122304, 1122599, 1122608, 1123013, 1123060,
  1123109, 1123140, 1123157, 1123172, 1123208, 1123300, 1123319, 1124352, 1124471, 1124480,
  1124503, 1124512, 1124583, 1124592, 1124839, 1124848, 1125016, 1125031, 1125120, 1125876,
  1125893, 1125940, 1126071, 1126145, 1126311, 1126404, 1126437, 1126471, 1126480, 1126615,
  1126640, 1126679, 1126704, 1127063, 1127072, 1127191, 1127200, 1127239, 1127248, 1127335,
  1127348, 1127376, 1127397, 1127428, 1127445, 1127511, 1127541, 1127575, 1127605, 1127655,
  1127680, 1127703, 1127797, 1127815, 1127888, 1127973, 1128007, 1128036, 1128151, 1128196,
  1128279, 1130496, 1131349, 1131396, 1131525, 1131556, 1131605, 1131620, 1131632, 1131704,
  1131777, 1131944, 1131975, 1131992, 1132004, 1132016, 1132071, 1132544, 1133317, 1133364,
  1133461, 1133476, 1133493, 1133556, 1133589, 1133604, 1133632, 1133672, 1133680, 1133703,
  1133825, 1133991, 1136640, 1137397, 1137444, 1137511, 1137541, 1137604, 1137637, 1137652,
  1137688, 1138048, 1138116, 1138151, 1138688, 1139461, 1139508, 1139637, 1139668, 1139685,
  1139700, 1139736, 1139776, 1139799, 1139969, 1140135, 1140232, 1140439, 1140736, 1141428,
  1141445, 1141460, 1141477, 1141508, 1141605, 1141620, 1141632, 1141656, 1141671, 1141761,
  1141927, 1142784, 1143223, 1143252, 1143301, 1143332, 1143397, 1143412, 1143495, 1143553,
  1143715, 1143752, 1143808, 1143927, 1146880, 1147589, 1147636, 1147781, 1147796, 1147832,
  1147847, 1149440, 1150465, 1150627, 1150775, 1150960, 1151095, 1151120, 1151143, 1151168,
  1151303, 1151312, 1151351, 1151360, 1151749, 1151847, 1151861, 1151895, 1151924, 1151957,
  1151972, 1151984, 1152005, 1152016, 1152037, 1152052, 1152072, 1152119, 1152257, 1152423,
  1153536, 1153671, 1153696, 1154325, 1154372, 1154439, 1154468, 1154501, 1154564, 1154576,
  1154600, 1154608, 1154629, 1154647, 1155072, 1155092, 1155248, 1155892, 1155989, 1156000,
  1156020, 1156088, 1156212, 1156231, 1156352, 1156372, 1156469, 1156500, 1156544, 1157284,
  1157493, 1157508, 1157544, 1157584, 1157608, 1157687, 1157888, 1159063, 1163264, 1163415,
  1163424, 1164021, 1164036, 1164151, 1164164, 1164261, 1164276, 1164288, 1164312, 1164391,
  1164545, 1164707, 1165015, 1165064, 1165088, 1165575, 1165604, 1165959, 1165973, 1165988,
  1166101, 1166116, 1166149, 1166164, 1166199, 1167360, 1167479, 1167488, 1167527, 1167536,
  1168148, 1168247, 1168292, 1168311, 1168324, 1168359, 1168372, 1168480, 1168500, 1168519,
  1168641, 1168807, 1168896, 1168999, 1169008, 1169047, 1169056, 1169573, 1169655, 1169668,
  1169703, 1169717, 1169748, 1169765, 1169780, 1169792, 1169815, 1169921, 1170087, 1175040,
  1175348, 1175381, 1175416, 1175447, 1178368, 1178391, 1178627, 1178968, 1179431, 1179640
]

/-- The runs that begin from U+12000 on, written in the same way. -/
def highRuns : Array Nat := #[
  1179648, 1194407, 1196034, 1197815, 1197832, 1197911, 1198080, 1201223, 1243392, 1244952,
  1244983, 1245184, 1262327, 1327104, 1336439, 1474560, 1483671, 1483776, 1484279, 1484289,
  1484455, 1484520, 1484544, 1485815, 1485825, 1485991, 1486080, 1486567, 1486596, 1486680,
  1486695, 1486848, 1487620, 1487736, 1487872, 1487944, 1487975, 1488129, 1488295, 1488307,
  1488423, 1488432, 1488775, 1488848, 1489159, 1500160, 1501187, 1501560, 1501623, 1503232,
  1504439, 1504500, 1504512, 1504533, 1505415, 1505524, 1505584, 1505799, 1506816, 1506856,
  1506864, 1506884, 1506903, 1507077, 1507111, 1507328, 1605511, 1605632, 1625447, 1626112,
  1626263, 1769216, 1769287, 1769296, 1769415, 1769424, 1769463, 1769472, 1774135, 1774848,
  1774903, 1775168, 1775239, 1775360, 1781703, 1818624, 1820343, 1820416, 1820631, 1820672,
  1820823, 1820928, 1821095, 1821128, 1821140, 1821176, 1821191, 1896452, 1897191, 1897220,
  1897591, 1897736, 1899591, 1900552, 1904487, 1904648, 1905271, 1905304, 1906261, 1906292,
  1906344, 1906389, 1906487, 1906612, 1906744, 1906772, 1906888, 1907364, 1907432, 1908407,
  1908744, 1909796, 1909848, 1909863, 1912323, 1912647, 1912840, 1914231, 1914371, 1914775,
  1916928, 1918295, 1918304, 1919447, 1919456, 1919495, 1919520, 1919543, 1919568, 1919607,
  1919632, 1919703, 1919712, 1919911, 1919920, 1919943, 1919952, 1920071, 1920080, 1921127,
  1921136, 1921207, 1921232, 1921367, 1921376, 1921495, 1921504, 1921959, 1921968, 1922039,
  1922048, 1922135, 1922144, 1922167, 1922208, 1922327, 1922336, 1927783, 1927808, 1928216,
  1928224, 1928632, 1928640, 1929144, 1929152, 1929560, 1929568, 1930072, 1930080, 1930488,
  1930496, 1931000, 1931008, 1931416, 1931424, 1931928, 1931936, 1932344, 1932352, 1932487,
  1932513, 1933320, 1941508, 1942392, 1942452, 1943256, 1943380, 1943400, 1943620, 1943640,
  1943751, 1943988, 1944071, 1944084, 1944327, 1961984, 1962487, 1966084, 1966199, 1966212,
  1966487, 1966516, 1966631, 1966644, 1966679, 1966692, 1966775, 1970176, 1970903, 1970948,
  1971056, 1971175, 1971201, 1971367, 1971424, 1971448, 1971463, 1976576, 1977060, 1977079,
  1977344, 1978052, 1978113, 1978279, 1978360, 1978375, 1998336, 1998455, 1998464, 1998535,
  1998544, 1998583, 1998592, 1998839, 1998848, 2002007, 2002035, 2002180, 2002295, 2002944,
  2004036, 2004144, 2004167, 2004225, 2004391, 2004456, 2004487, 2017043, 2017992, 2018003,
  2018056, 2018067, 2018135, 2019347, 2020072, 2020083, 2020327, 2023424, 2023495, 2023504,
  2023943, 2023952, 2023991, 2024000, 2024023, 2024048, 2024071, 2024080, 2024247, 2024256,
  2024327, 2024336, 2024359, 2024368, 2024391, 2024480, 2024503, 2024560, 2024583, 2024592,
  2024615, 2024624, 2024647, 2024656, 2024711, 2024720, 2024759, 2024768, 2024791, 2024816,
  2024839, 2024848, 2024871, 2024880, 2024903, 2024912, 2024935, 2024944, 2024967, 2024976,
  2025015, 2025024, 2025047, 2025072, 2025143, 2025152, 2025271, 2025280, 2025351, 2025360,
  2025431, 2025440, 2025463, 2025472, 2025639, 2025648, 2025927, 2026000, 2026055, 2026064,
  2026151, 2026160, 2026439, 2027272, 2027303, 2031624, 2032327, 2032392, 2033991, 2034184,
  2034423, 2034456, 2034695, 2034712, 2034951, 2034968, 2035559, 2035715, 2035928, 2038503,
  2039400, 2039863, 2040072, 2040775, 2040840, 2040983, 2041096, 2041127, 2041352, 2041447,
  2043912, 2059655, 2059736, 2059991, 2060040, 2060247, 2060296, 2062151, 2062344, 2063767,
  2063880, 2064071, 2064136, 2064151, 2064392, 2064583, 2064648, 2065543, 2065672, 2065831,
  2065928, 2066567, 2066696, 2067175, 2067208, 2067239, 2068488, 2073927, 2074120, 2074343,
  2074376, 2074455, 2074504, 2074583, 2074632, 2074743, 2074888, 2075351, 2075400, 2075575,
  2075656, 2075751, 2075912, 2076071, 2076168, 2076295, 2076424, 2076535, 2076680, 2079031,
  2079048, 2079927, 2080513, 2080679, 2097152, 2780679, 2781184, 2847639, 2847744, 2851303,
  2851328, 2943527, 2943744, 3063319, 3112960, 3121639, 3145728, 3224759, 14684164, 14688007
]

/-- The part of the table that holds the run of `code`: the last one whose first run does not begin
after it. -/
def runsNear (code : Nat) : Array Nat :=
  let key := code * 16 + 15
  if key < scriptRuns.getD 0 0 then lowRuns
  else if key < symbolRuns.getD 0 0 then scriptRuns
  else if key < ancientRuns.getD 0 0 then symbolRuns
  else if key < highRuns.getD 0 0 then ancientRuns
  else highRuns

/-- The run that `code` belongs to. -/
def runOf (code : Nat) : Nat :=
  let runs := runsNear code
  runs.getD (countUpTo runs (code * 16 + 15) - 1) 7

/-- The category of the code point `code`. -/
def of (code : Nat) : Category :=
  ofIndex (runOf code % 16)

end Category

/-! ### The classes that patterns refer to -/

/-- Letters of any script. -/
def isLetter (c : Char) : Bool :=
  Category.of c.toNat == .letter

/-- Decimal digits of any script. -/
def isDecimal (c : Char) : Bool :=
  if c.toNat < 128 then c.isDigit else Category.of c.toNat == .decimal

/-- The value of a decimal digit: every script's ten digits stand in a row, beginning with its
zero, at the start of a run of digits. -/
def digitValue (c : Char) : Nat :=
  (c.toNat - Category.runOf c.toNat / 16) % 10

/-- Letters and numbers of any script, and the low line. -/
def isWord (c : Char) : Bool :=
  if c.toNat < 128 then
    c.isAlphanum || c == '_'
  else
    match Category.of c.toNat with
    | .letter | .decimal | .letterNumber | .otherNumber => true
    | _ => false

/-- Characters that quoted text shows as they stand. -/
def isVisible (c : Char) : Bool :=
  Category.of c.toNat != .hidden

/-! ### Names -/

/-- Letters and letter-like symbols that a name cannot begin with. -/
def notNameStart : List Nat :=
  [0x37a, 0xe33, 0xeb3, 0x2e2f, 0xfc5e, 0xfc5f, 0xfc60, 0xfc61, 0xfc62, 0xfc63, 0xfdfa, 0xfdfb,
   0xfe70, 0xfe72, 0xfe74, 0xfe76, 0xfe78, 0xfe7a, 0xfe7c, 0xfe7e, 0xff9e, 0xff9f]

/-- Other characters that a name can begin with. -/
def alsoNameStart : List Nat :=
  [0x5f, 0x1885, 0x1886, 0x2118, 0x212e]

/-- Other characters that can stand inside a name. -/
def alsoNamePart : List Nat :=
  [0xb7, 0x387, 0xe33, 0xeb3, 0x1369, 0x136a, 0x136b, 0x136c, 0x136d, 0x136e, 0x136f, 0x1370,
   0x1371, 0x19da, 0xff9e, 0xff9f]

/-- Characters that a name can begin with. -/
def isNameStart (c : Char) : Bool :=
  match Category.of c.toNat with
  | .letter | .letterNumber => !notNameStart.contains c.toNat
  | _ => alsoNameStart.contains c.toNat

/-- Characters that a name can go on with. -/
def isNamePart (c : Char) : Bool :=
  isNameStart c ||
    match Category.of c.toNat with
    | .mark | .spacingMark | .decimal | .connector => true
    | _ => alsoNamePart.contains c.toNat

/-- A name is a non-empty text that begins and goes on as names do. -/
def isName : List Char → Bool
  | [] => false
  | c :: rest => isNameStart c && rest.all isNamePart

end LineLint.Text
