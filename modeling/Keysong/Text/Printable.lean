import Keysong.Text.Span

/-!
# Printable characters

The characters that a message shows as they are.  Controls, format characters, separators other
than the space, private and unassigned code points of Unicode 14 are not printable; a message
shows them by their number.

## Main Definitions

* `isPrintable` — the property
-/

namespace Keysong.Text

/-- The code points that are not printable, as runs. -/
def unprintableSpans : List Span :=
  [.solid 0x0 0x1F, .solid 0x7F 0xA0, .solid 0xAD 0xAD, .solid 0x378 0x379, .solid 0x380 0x383,
   .solid 0x38B 0x38B, .solid 0x38D 0x38D, .solid 0x3A2 0x3A2, .solid 0x530 0x530,
   .solid 0x557 0x558, .solid 0x58B 0x58C, .solid 0x590 0x590, .solid 0x5C8 0x5CF,
   .solid 0x5EB 0x5EE, .solid 0x5F5 0x605, .solid 0x61C 0x61C, .solid 0x6DD 0x6DD,
   .solid 0x70E 0x70F, .solid 0x74B 0x74C, .solid 0x7B2 0x7BF, .solid 0x7FB 0x7FC,
   .solid 0x82E 0x82F, .solid 0x83F 0x83F, .solid 0x85C 0x85D, .solid 0x85F 0x85F,
   .solid 0x86B 0x86F, .solid 0x88F 0x897, .solid 0x8E2 0x8E2, .solid 0x984 0x984,
   .solid 0x98D 0x98E, .solid 0x991 0x992, .solid 0x9A9 0x9A9, .solid 0x9B1 0x9B1,
   .solid 0x9B3 0x9B5, .solid 0x9BA 0x9BB, .solid 0x9C5 0x9C6, .solid 0x9C9 0x9CA,
   .solid 0x9CF 0x9D6, .solid 0x9D8 0x9DB, .solid 0x9DE 0x9DE, .solid 0x9E4 0x9E5,
   .solid 0x9FF 0xA00, .solid 0xA04 0xA04, .solid 0xA0B 0xA0E, .solid 0xA11 0xA12,
   .solid 0xA29 0xA29, .solid 0xA31 0xA31, .solid 0xA34 0xA34, .solid 0xA37 0xA37,
   .solid 0xA3A 0xA3B, .solid 0xA3D 0xA3D, .solid 0xA43 0xA46, .solid 0xA49 0xA4A,
   .solid 0xA4E 0xA50, .solid 0xA52 0xA58, .solid 0xA5D 0xA5D, .solid 0xA5F 0xA65,
   .solid 0xA77 0xA80, .solid 0xA84 0xA84, .solid 0xA8E 0xA8E, .solid 0xA92 0xA92,
   .solid 0xAA9 0xAA9, .solid 0xAB1 0xAB1, .solid 0xAB4 0xAB4, .solid 0xABA 0xABB,
   .solid 0xAC6 0xAC6, .solid 0xACA 0xACA, .solid 0xACE 0xACF, .solid 0xAD1 0xADF,
   .solid 0xAE4 0xAE5, .solid 0xAF2 0xAF8, .solid 0xB00 0xB00, .solid 0xB04 0xB04,
   .solid 0xB0D 0xB0E, .solid 0xB11 0xB12, .solid 0xB29 0xB29, .solid 0xB31 0xB31,
   .solid 0xB34 0xB34, .solid 0xB3A 0xB3B, .solid 0xB45 0xB46, .solid 0xB49 0xB4A,
   .solid 0xB4E 0xB54, .solid 0xB58 0xB5B, .solid 0xB5E 0xB5E, .solid 0xB64 0xB65,
   .solid 0xB78 0xB81, .solid 0xB84 0xB84, .solid 0xB8B 0xB8D, .solid 0xB91 0xB91,
   .solid 0xB96 0xB98, .solid 0xB9B 0xB9B, .solid 0xB9D 0xB9D, .solid 0xBA0 0xBA2,
   .solid 0xBA5 0xBA7, .solid 0xBAB 0xBAD, .solid 0xBBA 0xBBD, .solid 0xBC3 0xBC5,
   .solid 0xBC9 0xBC9, .solid 0xBCE 0xBCF, .solid 0xBD1 0xBD6, .solid 0xBD8 0xBE5,
   .solid 0xBFB 0xBFF, .solid 0xC0D 0xC0D, .solid 0xC11 0xC11, .solid 0xC29 0xC29,
   .solid 0xC3A 0xC3B, .solid 0xC45 0xC45, .solid 0xC49 0xC49, .solid 0xC4E 0xC54,
   .solid 0xC57 0xC57, .solid 0xC5B 0xC5C, .solid 0xC5E 0xC5F, .solid 0xC64 0xC65,
   .solid 0xC70 0xC76, .solid 0xC8D 0xC8D, .solid 0xC91 0xC91, .solid 0xCA9 0xCA9,
   .solid 0xCB4 0xCB4, .solid 0xCBA 0xCBB, .solid 0xCC5 0xCC5, .solid 0xCC9 0xCC9,
   .solid 0xCCE 0xCD4, .solid 0xCD7 0xCDC, .solid 0xCDF 0xCDF, .solid 0xCE4 0xCE5,
   .solid 0xCF0 0xCF0, .solid 0xCF3 0xCFF, .solid 0xD0D 0xD0D, .solid 0xD11 0xD11,
   .solid 0xD45 0xD45, .solid 0xD49 0xD49, .solid 0xD50 0xD53, .solid 0xD64 0xD65,
   .solid 0xD80 0xD80, .solid 0xD84 0xD84, .solid 0xD97 0xD99, .solid 0xDB2 0xDB2,
   .solid 0xDBC 0xDBC, .solid 0xDBE 0xDBF, .solid 0xDC7 0xDC9, .solid 0xDCB 0xDCE,
   .solid 0xDD5 0xDD5, .solid 0xDD7 0xDD7, .solid 0xDE0 0xDE5, .solid 0xDF0 0xDF1,
   .solid 0xDF5 0xE00, .solid 0xE3B 0xE3E, .solid 0xE5C 0xE80, .solid 0xE83 0xE83,
   .solid 0xE85 0xE85, .solid 0xE8B 0xE8B, .solid 0xEA4 0xEA4, .solid 0xEA6 0xEA6,
   .solid 0xEBE 0xEBF, .solid 0xEC5 0xEC5, .solid 0xEC7 0xEC7, .solid 0xECE 0xECF,
   .solid 0xEDA 0xEDB, .solid 0xEE0 0xEFF, .solid 0xF48 0xF48, .solid 0xF6D 0xF70,
   .solid 0xF98 0xF98, .solid 0xFBD 0xFBD, .solid 0xFCD 0xFCD, .solid 0xFDB 0xFFF,
   .solid 0x10C6 0x10C6, .solid 0x10C8 0x10CC, .solid 0x10CE 0x10CF, .solid 0x1249 0x1249,
   .solid 0x124E 0x124F, .solid 0x1257 0x1257, .solid 0x1259 0x1259, .solid 0x125E 0x125F,
   .solid 0x1289 0x1289, .solid 0x128E 0x128F, .solid 0x12B1 0x12B1, .solid 0x12B6 0x12B7,
   .solid 0x12BF 0x12BF, .solid 0x12C1 0x12C1, .solid 0x12C6 0x12C7, .solid 0x12D7 0x12D7,
   .solid 0x1311 0x1311, .solid 0x1316 0x1317, .solid 0x135B 0x135C, .solid 0x137D 0x137F,
   .solid 0x139A 0x139F, .solid 0x13F6 0x13F7, .solid 0x13FE 0x13FF, .solid 0x1680 0x1680,
   .solid 0x169D 0x169F, .solid 0x16F9 0x16FF, .solid 0x1716 0x171E, .solid 0x1737 0x173F,
   .solid 0x1754 0x175F, .solid 0x176D 0x176D, .solid 0x1771 0x1771, .solid 0x1774 0x177F,
   .solid 0x17DE 0x17DF, .solid 0x17EA 0x17EF, .solid 0x17FA 0x17FF, .solid 0x180E 0x180E,
   .solid 0x181A 0x181F, .solid 0x1879 0x187F, .solid 0x18AB 0x18AF, .solid 0x18F6 0x18FF,
   .solid 0x191F 0x191F, .solid 0x192C 0x192F, .solid 0x193C 0x193F, .solid 0x1941 0x1943,
   .solid 0x196E 0x196F, .solid 0x1975 0x197F, .solid 0x19AC 0x19AF, .solid 0x19CA 0x19CF,
   .solid 0x19DB 0x19DD, .solid 0x1A1C 0x1A1D, .solid 0x1A5F 0x1A5F, .solid 0x1A7D 0x1A7E,
   .solid 0x1A8A 0x1A8F, .solid 0x1A9A 0x1A9F, .solid 0x1AAE 0x1AAF, .solid 0x1ACF 0x1AFF,
   .solid 0x1B4D 0x1B4F, .solid 0x1B7F 0x1B7F, .solid 0x1BF4 0x1BFB, .solid 0x1C38 0x1C3A,
   .solid 0x1C4A 0x1C4C, .solid 0x1C89 0x1C8F, .solid 0x1CBB 0x1CBC, .solid 0x1CC8 0x1CCF,
   .solid 0x1CFB 0x1CFF, .solid 0x1F16 0x1F17, .solid 0x1F1E 0x1F1F, .solid 0x1F46 0x1F47,
   .solid 0x1F4E 0x1F4F, .solid 0x1F58 0x1F58, .solid 0x1F5A 0x1F5A, .solid 0x1F5C 0x1F5C,
   .solid 0x1F5E 0x1F5E, .solid 0x1F7E 0x1F7F, .solid 0x1FB5 0x1FB5, .solid 0x1FC5 0x1FC5,
   .solid 0x1FD4 0x1FD5, .solid 0x1FDC 0x1FDC, .solid 0x1FF0 0x1FF1, .solid 0x1FF5 0x1FF5,
   .solid 0x1FFF 0x200F, .solid 0x2028 0x202F, .solid 0x205F 0x206F, .solid 0x2072 0x2073,
   .solid 0x208F 0x208F, .solid 0x209D 0x209F, .solid 0x20C1 0x20CF, .solid 0x20F1 0x20FF,
   .solid 0x218C 0x218F, .solid 0x2427 0x243F, .solid 0x244B 0x245F, .solid 0x2B74 0x2B75,
   .solid 0x2B96 0x2B96, .solid 0x2CF4 0x2CF8, .solid 0x2D26 0x2D26, .solid 0x2D28 0x2D2C,
   .solid 0x2D2E 0x2D2F, .solid 0x2D68 0x2D6E, .solid 0x2D71 0x2D7E, .solid 0x2D97 0x2D9F,
   .solid 0x2DA7 0x2DA7, .solid 0x2DAF 0x2DAF, .solid 0x2DB7 0x2DB7, .solid 0x2DBF 0x2DBF,
   .solid 0x2DC7 0x2DC7, .solid 0x2DCF 0x2DCF, .solid 0x2DD7 0x2DD7, .solid 0x2DDF 0x2DDF,
   .solid 0x2E5E 0x2E7F, .solid 0x2E9A 0x2E9A, .solid 0x2EF4 0x2EFF, .solid 0x2FD6 0x2FEF,
   .solid 0x2FFC 0x3000, .solid 0x3040 0x3040, .solid 0x3097 0x3098, .solid 0x3100 0x3104,
   .solid 0x3130 0x3130, .solid 0x318F 0x318F, .solid 0x31E4 0x31EF, .solid 0x321F 0x321F,
   .solid 0xA48D 0xA48F, .solid 0xA4C7 0xA4CF, .solid 0xA62C 0xA63F, .solid 0xA6F8 0xA6FF,
   .solid 0xA7CB 0xA7CF, .solid 0xA7D2 0xA7D2, .solid 0xA7D4 0xA7D4, .solid 0xA7DA 0xA7F1,
   .solid 0xA82D 0xA82F, .solid 0xA83A 0xA83F, .solid 0xA878 0xA87F, .solid 0xA8C6 0xA8CD,
   .solid 0xA8DA 0xA8DF, .solid 0xA954 0xA95E, .solid 0xA97D 0xA97F, .solid 0xA9CE 0xA9CE,
   .solid 0xA9DA 0xA9DD, .solid 0xA9FF 0xA9FF, .solid 0xAA37 0xAA3F, .solid 0xAA4E 0xAA4F,
   .solid 0xAA5A 0xAA5B, .solid 0xAAC3 0xAADA, .solid 0xAAF7 0xAB00, .solid 0xAB07 0xAB08,
   .solid 0xAB0F 0xAB10, .solid 0xAB17 0xAB1F, .solid 0xAB27 0xAB27, .solid 0xAB2F 0xAB2F,
   .solid 0xAB6C 0xAB6F, .solid 0xABEE 0xABEF, .solid 0xABFA 0xABFF, .solid 0xD7A4 0xD7AF,
   .solid 0xD7C7 0xD7CA, .solid 0xD7FC 0xD7FF, .solid 0xE000 0xF8FF, .solid 0xFA6E 0xFA6F,
   .solid 0xFADA 0xFAFF, .solid 0xFB07 0xFB12, .solid 0xFB18 0xFB1C, .solid 0xFB37 0xFB37,
   .solid 0xFB3D 0xFB3D, .solid 0xFB3F 0xFB3F, .solid 0xFB42 0xFB42, .solid 0xFB45 0xFB45,
   .solid 0xFBC3 0xFBD2, .solid 0xFD90 0xFD91, .solid 0xFDC8 0xFDCE, .solid 0xFDD0 0xFDEF,
   .solid 0xFE1A 0xFE1F, .solid 0xFE53 0xFE53, .solid 0xFE67 0xFE67, .solid 0xFE6C 0xFE6F,
   .solid 0xFE75 0xFE75, .solid 0xFEFD 0xFF00, .solid 0xFFBF 0xFFC1, .solid 0xFFC8 0xFFC9,
   .solid 0xFFD0 0xFFD1, .solid 0xFFD8 0xFFD9, .solid 0xFFDD 0xFFDF, .solid 0xFFE7 0xFFE7,
   .solid 0xFFEF 0xFFFB, .solid 0xFFFE 0xFFFF, .solid 0x1000C 0x1000C, .solid 0x10027 0x10027,
   .solid 0x1003B 0x1003B, .solid 0x1003E 0x1003E, .solid 0x1004E 0x1004F,
   .solid 0x1005E 0x1007F, .solid 0x100FB 0x100FF, .solid 0x10103 0x10106,
   .solid 0x10134 0x10136, .solid 0x1018F 0x1018F, .solid 0x1019D 0x1019F,
   .solid 0x101A1 0x101CF, .solid 0x101FE 0x1027F, .solid 0x1029D 0x1029F,
   .solid 0x102D1 0x102DF, .solid 0x102FC 0x102FF, .solid 0x10324 0x1032C,
   .solid 0x1034B 0x1034F, .solid 0x1037B 0x1037F, .solid 0x1039E 0x1039E,
   .solid 0x103C4 0x103C7, .solid 0x103D6 0x103FF, .solid 0x1049E 0x1049F,
   .solid 0x104AA 0x104AF, .solid 0x104D4 0x104D7, .solid 0x104FC 0x104FF,
   .solid 0x10528 0x1052F, .solid 0x10564 0x1056E, .solid 0x1057B 0x1057B,
   .solid 0x1058B 0x1058B, .solid 0x10593 0x10593, .solid 0x10596 0x10596,
   .solid 0x105A2 0x105A2, .solid 0x105B2 0x105B2, .solid 0x105BA 0x105BA,
   .solid 0x105BD 0x105FF, .solid 0x10737 0x1073F, .solid 0x10756 0x1075F,
   .solid 0x10768 0x1077F, .solid 0x10786 0x10786, .solid 0x107B1 0x107B1,
   .solid 0x107BB 0x107FF, .solid 0x10806 0x10807, .solid 0x10809 0x10809,
   .solid 0x10836 0x10836, .solid 0x10839 0x1083B, .solid 0x1083D 0x1083E,
   .solid 0x10856 0x10856, .solid 0x1089F 0x108A6, .solid 0x108B0 0x108DF,
   .solid 0x108F3 0x108F3, .solid 0x108F6 0x108FA, .solid 0x1091C 0x1091E,
   .solid 0x1093A 0x1093E, .solid 0x10940 0x1097F, .solid 0x109B8 0x109BB,
   .solid 0x109D0 0x109D1, .solid 0x10A04 0x10A04, .solid 0x10A07 0x10A0B,
   .solid 0x10A14 0x10A14, .solid 0x10A18 0x10A18, .solid 0x10A36 0x10A37,
   .solid 0x10A3B 0x10A3E, .solid 0x10A49 0x10A4F, .solid 0x10A59 0x10A5F,
   .solid 0x10AA0 0x10ABF, .solid 0x10AE7 0x10AEA, .solid 0x10AF7 0x10AFF,
   .solid 0x10B36 0x10B38, .solid 0x10B56 0x10B57, .solid 0x10B73 0x10B77,
   .solid 0x10B92 0x10B98, .solid 0x10B9D 0x10BA8, .solid 0x10BB0 0x10BFF,
   .solid 0x10C49 0x10C7F, .solid 0x10CB3 0x10CBF, .solid 0x10CF3 0x10CF9,
   .solid 0x10D28 0x10D2F, .solid 0x10D3A 0x10E5F, .solid 0x10E7F 0x10E7F,
   .solid 0x10EAA 0x10EAA, .solid 0x10EAE 0x10EAF, .solid 0x10EB2 0x10EFF,
   .solid 0x10F28 0x10F2F, .solid 0x10F5A 0x10F6F, .solid 0x10F8A 0x10FAF,
   .solid 0x10FCC 0x10FDF, .solid 0x10FF7 0x10FFF, .solid 0x1104E 0x11051,
   .solid 0x11076 0x1107E, .solid 0x110BD 0x110BD, .solid 0x110C3 0x110CF,
   .solid 0x110E9 0x110EF, .solid 0x110FA 0x110FF, .solid 0x11135 0x11135,
   .solid 0x11148 0x1114F, .solid 0x11177 0x1117F, .solid 0x111E0 0x111E0,
   .solid 0x111F5 0x111FF, .solid 0x11212 0x11212, .solid 0x1123F 0x1127F,
   .solid 0x11287 0x11287, .solid 0x11289 0x11289, .solid 0x1128E 0x1128E,
   .solid 0x1129E 0x1129E, .solid 0x112AA 0x112AF, .solid 0x112EB 0x112EF,
   .solid 0x112FA 0x112FF, .solid 0x11304 0x11304, .solid 0x1130D 0x1130E,
   .solid 0x11311 0x11312, .solid 0x11329 0x11329, .solid 0x11331 0x11331,
   .solid 0x11334 0x11334, .solid 0x1133A 0x1133A, .solid 0x11345 0x11346,
   .solid 0x11349 0x1134A, .solid 0x1134E 0x1134F, .solid 0x11351 0x11356,
   .solid 0x11358 0x1135C, .solid 0x11364 0x11365, .solid 0x1136D 0x1136F,
   .solid 0x11375 0x113FF, .solid 0x1145C 0x1145C, .solid 0x11462 0x1147F,
   .solid 0x114C8 0x114CF, .solid 0x114DA 0x1157F, .solid 0x115B6 0x115B7,
   .solid 0x115DE 0x115FF, .solid 0x11645 0x1164F, .solid 0x1165A 0x1165F,
   .solid 0x1166D 0x1167F, .solid 0x116BA 0x116BF, .solid 0x116CA 0x116FF,
   .solid 0x1171B 0x1171C, .solid 0x1172C 0x1172F, .solid 0x11747 0x117FF,
   .solid 0x1183C 0x1189F, .solid 0x118F3 0x118FE, .solid 0x11907 0x11908,
   .solid 0x1190A 0x1190B, .solid 0x11914 0x11914, .solid 0x11917 0x11917,
   .solid 0x11936 0x11936, .solid 0x11939 0x1193A, .solid 0x11947 0x1194F,
   .solid 0x1195A 0x1199F, .solid 0x119A8 0x119A9, .solid 0x119D8 0x119D9,
   .solid 0x119E5 0x119FF, .solid 0x11A48 0x11A4F, .solid 0x11AA3 0x11AAF,
   .solid 0x11AF9 0x11BFF, .solid 0x11C09 0x11C09, .solid 0x11C37 0x11C37,
   .solid 0x11C46 0x11C4F, .solid 0x11C6D 0x11C6F, .solid 0x11C90 0x11C91,
   .solid 0x11CA8 0x11CA8, .solid 0x11CB7 0x11CFF, .solid 0x11D07 0x11D07,
   .solid 0x11D0A 0x11D0A, .solid 0x11D37 0x11D39, .solid 0x11D3B 0x11D3B,
   .solid 0x11D3E 0x11D3E, .solid 0x11D48 0x11D4F, .solid 0x11D5A 0x11D5F,
   .solid 0x11D66 0x11D66, .solid 0x11D69 0x11D69, .solid 0x11D8F 0x11D8F,
   .solid 0x11D92 0x11D92, .solid 0x11D99 0x11D9F, .solid 0x11DAA 0x11EDF,
   .solid 0x11EF9 0x11FAF, .solid 0x11FB1 0x11FBF, .solid 0x11FF2 0x11FFE,
   .solid 0x1239A 0x123FF, .solid 0x1246F 0x1246F, .solid 0x12475 0x1247F,
   .solid 0x12544 0x12F8F, .solid 0x12FF3 0x12FFF, .solid 0x1342F 0x143FF,
   .solid 0x14647 0x167FF, .solid 0x16A39 0x16A3F, .solid 0x16A5F 0x16A5F,
   .solid 0x16A6A 0x16A6D, .solid 0x16ABF 0x16ABF, .solid 0x16ACA 0x16ACF,
   .solid 0x16AEE 0x16AEF, .solid 0x16AF6 0x16AFF, .solid 0x16B46 0x16B4F,
   .solid 0x16B5A 0x16B5A, .solid 0x16B62 0x16B62, .solid 0x16B78 0x16B7C,
   .solid 0x16B90 0x16E3F, .solid 0x16E9B 0x16EFF, .solid 0x16F4B 0x16F4E,
   .solid 0x16F88 0x16F8E, .solid 0x16FA0 0x16FDF, .solid 0x16FE5 0x16FEF,
   .solid 0x16FF2 0x16FFF, .solid 0x187F8 0x187FF, .solid 0x18CD6 0x18CFF,
   .solid 0x18D09 0x1AFEF, .solid 0x1AFF4 0x1AFF4, .solid 0x1AFFC 0x1AFFC,
   .solid 0x1AFFF 0x1AFFF, .solid 0x1B123 0x1B14F, .solid 0x1B153 0x1B163,
   .solid 0x1B168 0x1B16F, .solid 0x1B2FC 0x1BBFF, .solid 0x1BC6B 0x1BC6F,
   .solid 0x1BC7D 0x1BC7F, .solid 0x1BC89 0x1BC8F, .solid 0x1BC9A 0x1BC9B,
   .solid 0x1BCA0 0x1CEFF, .solid 0x1CF2E 0x1CF2F, .solid 0x1CF47 0x1CF4F,
   .solid 0x1CFC4 0x1CFFF, .solid 0x1D0F6 0x1D0FF, .solid 0x1D127 0x1D128,
   .solid 0x1D173 0x1D17A, .solid 0x1D1EB 0x1D1FF, .solid 0x1D246 0x1D2DF,
   .solid 0x1D2F4 0x1D2FF, .solid 0x1D357 0x1D35F, .solid 0x1D379 0x1D3FF,
   .solid 0x1D455 0x1D455, .solid 0x1D49D 0x1D49D, .solid 0x1D4A0 0x1D4A1,
   .solid 0x1D4A3 0x1D4A4, .solid 0x1D4A7 0x1D4A8, .solid 0x1D4AD 0x1D4AD,
   .solid 0x1D4BA 0x1D4BA, .solid 0x1D4BC 0x1D4BC, .solid 0x1D4C4 0x1D4C4,
   .solid 0x1D506 0x1D506, .solid 0x1D50B 0x1D50C, .solid 0x1D515 0x1D515,
   .solid 0x1D51D 0x1D51D, .solid 0x1D53A 0x1D53A, .solid 0x1D53F 0x1D53F,
   .solid 0x1D545 0x1D545, .solid 0x1D547 0x1D549, .solid 0x1D551 0x1D551,
   .solid 0x1D6A6 0x1D6A7, .solid 0x1D7CC 0x1D7CD, .solid 0x1DA8C 0x1DA9A,
   .solid 0x1DAA0 0x1DAA0, .solid 0x1DAB0 0x1DEFF, .solid 0x1DF1F 0x1DFFF,
   .solid 0x1E007 0x1E007, .solid 0x1E019 0x1E01A, .solid 0x1E022 0x1E022,
   .solid 0x1E025 0x1E025, .solid 0x1E02B 0x1E0FF, .solid 0x1E12D 0x1E12F,
   .solid 0x1E13E 0x1E13F, .solid 0x1E14A 0x1E14D, .solid 0x1E150 0x1E28F,
   .solid 0x1E2AF 0x1E2BF, .solid 0x1E2FA 0x1E2FE, .solid 0x1E300 0x1E7DF,
   .solid 0x1E7E7 0x1E7E7, .solid 0x1E7EC 0x1E7EC, .solid 0x1E7EF 0x1E7EF,
   .solid 0x1E7FF 0x1E7FF, .solid 0x1E8C5 0x1E8C6, .solid 0x1E8D7 0x1E8FF,
   .solid 0x1E94C 0x1E94F, .solid 0x1E95A 0x1E95D, .solid 0x1E960 0x1EC70,
   .solid 0x1ECB5 0x1ED00, .solid 0x1ED3E 0x1EDFF, .solid 0x1EE04 0x1EE04,
   .solid 0x1EE20 0x1EE20, .solid 0x1EE23 0x1EE23, .solid 0x1EE25 0x1EE26,
   .solid 0x1EE28 0x1EE28, .solid 0x1EE33 0x1EE33, .solid 0x1EE38 0x1EE38,
   .solid 0x1EE3A 0x1EE3A, .solid 0x1EE3C 0x1EE41, .solid 0x1EE43 0x1EE46,
   .solid 0x1EE48 0x1EE48, .solid 0x1EE4A 0x1EE4A, .solid 0x1EE4C 0x1EE4C,
   .solid 0x1EE50 0x1EE50, .solid 0x1EE53 0x1EE53, .solid 0x1EE55 0x1EE56,
   .solid 0x1EE58 0x1EE58, .solid 0x1EE5A 0x1EE5A, .solid 0x1EE5C 0x1EE5C,
   .solid 0x1EE5E 0x1EE5E, .solid 0x1EE60 0x1EE60, .solid 0x1EE63 0x1EE63,
   .solid 0x1EE65 0x1EE66, .solid 0x1EE6B 0x1EE6B, .solid 0x1EE73 0x1EE73,
   .solid 0x1EE78 0x1EE78, .solid 0x1EE7D 0x1EE7D, .solid 0x1EE7F 0x1EE7F,
   .solid 0x1EE8A 0x1EE8A, .solid 0x1EE9C 0x1EEA0, .solid 0x1EEA4 0x1EEA4,
   .solid 0x1EEAA 0x1EEAA, .solid 0x1EEBC 0x1EEEF, .solid 0x1EEF2 0x1EFFF,
   .solid 0x1F02C 0x1F02F, .solid 0x1F094 0x1F09F, .solid 0x1F0AF 0x1F0B0,
   .solid 0x1F0C0 0x1F0C0, .solid 0x1F0D0 0x1F0D0, .solid 0x1F0F6 0x1F0FF,
   .solid 0x1F1AE 0x1F1E5, .solid 0x1F203 0x1F20F, .solid 0x1F23C 0x1F23F,
   .solid 0x1F249 0x1F24F, .solid 0x1F252 0x1F25F, .solid 0x1F266 0x1F2FF,
   .solid 0x1F6D8 0x1F6DC, .solid 0x1F6ED 0x1F6EF, .solid 0x1F6FD 0x1F6FF,
   .solid 0x1F774 0x1F77F, .solid 0x1F7D9 0x1F7DF, .solid 0x1F7EC 0x1F7EF,
   .solid 0x1F7F1 0x1F7FF, .solid 0x1F80C 0x1F80F, .solid 0x1F848 0x1F84F,
   .solid 0x1F85A 0x1F85F, .solid 0x1F888 0x1F88F, .solid 0x1F8AE 0x1F8AF,
   .solid 0x1F8B2 0x1F8FF, .solid 0x1FA54 0x1FA5F, .solid 0x1FA6E 0x1FA6F,
   .solid 0x1FA75 0x1FA77, .solid 0x1FA7D 0x1FA7F, .solid 0x1FA87 0x1FA8F,
   .solid 0x1FAAD 0x1FAAF, .solid 0x1FABB 0x1FABF, .solid 0x1FAC6 0x1FACF,
   .solid 0x1FADA 0x1FADF, .solid 0x1FAE8 0x1FAEF, .solid 0x1FAF7 0x1FAFF,
   .solid 0x1FB93 0x1FB93, .solid 0x1FBCB 0x1FBEF, .solid 0x1FBFA 0x1FFFF,
   .solid 0x2A6E0 0x2A6FF, .solid 0x2B739 0x2B73F, .solid 0x2B81E 0x2B81F,
   .solid 0x2CEA2 0x2CEAF, .solid 0x2EBE1 0x2F7FF, .solid 0x2FA1E 0x2FFFF,
   .solid 0x3134B 0xE00FF, .solid 0xE01F0 0x10FFFF]

/-- Whether a message shows the character as it is. -/
def isPrintable (c : Char) : Bool := !Span.anyHolds unprintableSpans c.toNat

end Keysong.Text
