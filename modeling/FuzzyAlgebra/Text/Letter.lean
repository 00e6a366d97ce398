import FuzzyAlgebra.Text.Printable

/-!
# Letters and numbers

The printable characters that are neither letters nor numbers are punctuation, symbols and combining
marks. The tables list ranges that hold all of them above ASCII, and no letter and no number.
-/

namespace FuzzyAlgebra.Text

namespace Sign

def belowPunctuation : List (Nat × Nat) :=
  [(161, 169), (171, 177), (180, 180), (182, 184), (187, 187), (191, 191), (215, 215),
   (247, 247), (706, 709), (722, 735), (741, 747), (749, 749), (751, 879), (885, 885),
   (894, 894), (900, 901), (903, 903), (1014, 1014), (1154, 1161), (1370, 1375), (1417, 1479),
   (1523, 1567), (1611, 1631), (1642, 1645), (1648, 1648), (1748, 1748), (1750, 1764),
   (1767, 1773), (1789, 1790), (1792, 1805), (1809, 1809), (1840, 1866), (1958, 1968),
   (2027, 2035), (2038, 2041), (2045, 2047), (2070, 2073), (2075, 2083), (2085, 2087),
   (2089, 2110), (2137, 2142), (2184, 2184), (2200, 2207), (2250, 2307), (2362, 2364),
   (2366, 2383), (2385, 2391), (2402, 2405), (2416, 2416), (2433, 2435), (2492, 2492),
   (2494, 2509), (2519, 2519), (2530, 2531), (2546, 2547), (2554, 2555), (2557, 2563),
   (2620, 2641), (2672, 2673), (2677, 2691), (2748, 2748), (2750, 2765), (2786, 2787),
   (2800, 2801), (2810, 2819), (2876, 2876), (2878, 2903), (2914, 2915), (2928, 2928),
   (2946, 2946), (3006, 3021), (3031, 3031), (3059, 3076), (3132, 3132), (3134, 3158),
   (3170, 3171), (3191, 3191), (3199, 3199), (3201, 3204), (3260, 3260), (3262, 3286),
   (3298, 3299), (3328, 3331), (3387, 3388), (3390, 3405), (3407, 3407), (3415, 3415),
   (3426, 3427), (3449, 3449), (3457, 3459), (3530, 3551), (3570, 3572), (3633, 3633),
   (3636, 3647), (3655, 3663), (3674, 3675), (3761, 3761), (3764, 3772), (3784, 3789),
   (3841, 3871), (3892, 3903), (3953, 3975), (3981, 4058), (4139, 4158), (4170, 4175),
   (4182, 4185), (4190, 4192), (4194, 4196), (4199, 4205), (4209, 4212), (4226, 4237),
   (4239, 4239), (4250, 4255), (4347, 4347), (4957, 4968), (5008, 5017), (5120, 5120),
   (5741, 5742), (5787, 5788), (5867, 5869), (5906, 5909), (5938, 5942), (5970, 5971),
   (6002, 6003), (6068, 6102), (6104, 6107), (6109, 6109), (6144, 6159), (6277, 6278),
   (6313, 6313), (6432, 6469), (6622, 6655), (6679, 6687), (6741, 6783), (6816, 6822),
   (6824, 6916), (6964, 6980), (7002, 7042), (7073, 7085), (7142, 7167), (7204, 7231),
   (7294, 7295), (7360, 7400), (7405, 7405), (7412, 7412), (7415, 7417), (7616, 7679),
   (8125, 8125), (8127, 8129), (8141, 8143), (8157, 8159), (8173, 8175), (8189, 8286)]

def belowSupplementary : List (Nat × Nat) :=
  [(8314, 8318), (8330, 8334), (8352, 8449), (8451, 8454), (8456, 8457), (8468, 8468),
   (8470, 8472), (8478, 8483), (8485, 8485), (8487, 8487), (8489, 8489), (8494, 8494),
   (8506, 8507), (8512, 8516), (8522, 8525), (8527, 8527), (8586, 9290), (9372, 9449),
   (9472, 10101), (10132, 11263), (11493, 11498), (11503, 11505), (11513, 11516), (11518, 11519),
   (11632, 11647), (11744, 11822), (11824, 12292), (12296, 12320), (12330, 12336),
   (12342, 12343), (12349, 12351), (12441, 12444), (12448, 12448), (12539, 12539),
   (12688, 12689), (12694, 12703), (12736, 12771), (12800, 12830), (12842, 12871),
   (12880, 12880), (12896, 12927), (12938, 12976), (12992, 13311), (19904, 19967),
   (42128, 42182), (42238, 42239), (42509, 42511), (42607, 42622), (42654, 42655),
   (42736, 42774), (42784, 42785), (42889, 42890), (43010, 43010), (43014, 43014),
   (43019, 43019), (43043, 43052), (43062, 43065), (43124, 43137), (43188, 43215),
   (43232, 43249), (43256, 43258), (43260, 43260), (43263, 43263), (43302, 43311),
   (43335, 43359), (43392, 43395), (43443, 43469), (43486, 43487), (43493, 43493),
   (43561, 43574), (43587, 43587), (43596, 43597), (43612, 43615), (43639, 43641),
   (43643, 43645), (43696, 43696), (43698, 43700), (43703, 43704), (43710, 43711),
   (43713, 43713), (43742, 43743), (43755, 43761), (43765, 43766), (43867, 43867),
   (43882, 43883), (44003, 44013), (64286, 64286), (64297, 64297), (64434, 64450),
   (64830, 64847), (64975, 64975), (65020, 65131), (65281, 65295), (65306, 65312),
   (65339, 65344), (65371, 65381), (65504, 65533)]

def supplementary : List (Nat × Nat) :=
  [(65792, 65794), (65847, 65855), (65913, 65929), (65932, 66045), (66272, 66272),
   (66422, 66426), (66463, 66463), (66512, 66512), (66927, 66927), (67671, 67671),
   (67703, 67704), (67871, 67871), (67903, 67903), (68097, 68111), (68152, 68159),
   (68176, 68184), (68223, 68223), (68296, 68296), (68325, 68326), (68336, 68342),
   (68409, 68415), (68505, 68508), (68900, 68903), (69291, 69293), (69446, 69456),
   (69461, 69465), (69506, 69513), (69632, 69634), (69688, 69709), (69744, 69744),
   (69747, 69748), (69759, 69762), (69808, 69826), (69888, 69890), (69927, 69940),
   (69952, 69955), (69957, 69958), (70003, 70005), (70016, 70018), (70067, 70080),
   (70085, 70095), (70107, 70107), (70109, 70111), (70188, 70206), (70313, 70313),
   (70367, 70378), (70400, 70403), (70459, 70460), (70462, 70477), (70487, 70487),
   (70498, 70516), (70709, 70726), (70731, 70735), (70746, 70750), (70832, 70851),
   (70854, 70854), (71087, 71127), (71132, 71133), (71216, 71235), (71264, 71276),
   (71339, 71351), (71353, 71353), (71453, 71467), (71484, 71487), (71724, 71739),
   (71984, 71998), (72000, 72000), (72002, 72006), (72145, 72160), (72162, 72162),
   (72164, 72164), (72193, 72202), (72243, 72249), (72251, 72263), (72273, 72283),
   (72330, 72348), (72350, 72354), (72751, 72767), (72769, 72773), (72816, 72817),
   (72850, 72886), (73009, 73029), (73031, 73031), (73098, 73111), (73459, 73464),
   (73685, 73727), (74864, 74868), (77809, 77810), (92782, 92783), (92912, 92917),
   (92976, 92991), (92996, 92997), (93847, 93850), (94031, 94031), (94033, 94098),
   (94178, 94178), (94180, 94193), (113820, 119365), (119552, 119638), (120513, 120513),
   (120539, 120539), (120571, 120571), (120597, 120597), (120629, 120629), (120655, 120655),
   (120687, 120687), (120713, 120713), (120745, 120745), (120771, 120771), (120832, 121519),
   (122880, 122922), (123184, 123190), (123215, 123215), (123566, 123566), (123628, 123631),
   (123647, 123647), (125136, 125142), (125252, 125258), (125278, 125279), (126124, 126124),
   (126128, 126128), (126254, 126254), (126704, 127221), (127245, 129994), (917760, 917999)]

def ranges : List (Nat × Nat) := belowPunctuation ++ belowSupplementary ++ supplementary

end Sign

/-- Whether a character is a letter or a number of any script. -/
def isAlphanumeric (c : Char) : Bool :=
  c.isAlphanum || (128 ≤ c.toNat && isPrintable c && !inRanges Sign.ranges c.toNat)

end FuzzyAlgebra.Text
