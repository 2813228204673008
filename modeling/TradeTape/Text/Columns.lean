import TradeTape.Text.CharSet

/-
  Characters that do not take one column, by the properties of
  Unicode 17 that tell their width.

  Key definitions include:
    * `CharSet.invisible`
    * `CharSet.wide`
    * `CharSet.unjoining`
-/

namespace TradeTape

namespace CharSet

/-
  The characters without a column of their own that extend
  none before them: formats, fillers, letters that are written
  over the next one, and the inner letters of Korean syllables.
-/
def invisible : CharSet :=
  { bounds :=
      [0xad, 0xae, 0x605, 0x606, 0x61c, 0x61d, 0x70f, 0x710, 0x890,
       0x892, 0x8e2, 0x8e3, 0xd4e, 0xd4f, 0x1160, 0x1200, 0x180e,
       0x180f, 0x200b, 0x200c, 0x200d, 0x2010, 0x202a, 0x202f, 0x2060,
       0x2070, 0x3164, 0x3165, 0xa8fa, 0xa8fb, 0xd7b0, 0xd7c7, 0xd7cb,
       0xd7fc, 0xfeff, 0xff00, 0xffa0, 0xffa1, 0xfff0, 0xfff9,
       0x111c2, 0x111c4, 0x113d1, 0x113d2, 0x1193f, 0x11940, 0x11941,
       0x11942, 0x11a84, 0x11a8a, 0x11d46, 0x11d47, 0x11f02, 0x11f03,
       0x1bca0, 0x1bca4, 0x1d173, 0x1d17b, 0xe0000, 0xe0020, 0xe0080,
       0xe0100, 0xe01f0, 0xe1000] }

/-
  The characters that take two columns.
-/
def wide : CharSet :=
  { bounds :=
      [0x1100, 0x1160, 0x17a4, 0x17a5, 0x231a, 0x231c, 0x2329, 0x232b,
       0x23e9, 0x23ed, 0x23f0, 0x23f1, 0x23f3, 0x23f4, 0x25fd, 0x25ff,
       0x2614, 0x2616, 0x2630, 0x2638, 0x2648, 0x2654, 0x267f, 0x2680,
       0x268a, 0x2690, 0x2693, 0x2694, 0x26a1, 0x26a2, 0x26aa, 0x26ac,
       0x26bd, 0x26bf, 0x26c4, 0x26c6, 0x26ce, 0x26cf, 0x26d4, 0x26d5,
       0x26ea, 0x26eb, 0x26f2, 0x26f4, 0x26f5, 0x26f6, 0x26fa, 0x26fb,
       0x26fd, 0x26fe, 0x2705, 0x2706, 0x270a, 0x270c, 0x2728, 0x2729,
       0x274c, 0x274d, 0x274e, 0x274f, 0x2753, 0x2756, 0x2757, 0x2758,
       0x2795, 0x2798, 0x27b0, 0x27b1, 0x27bf, 0x27c0, 0x2b1b, 0x2b1d,
       0x2b50, 0x2b51, 0x2b55, 0x2b56, 0x2e80, 0x2e9a, 0x2e9b, 0x2ef4,
       0x2f00, 0x2fd6, 0x2ff0, 0x302a, 0x3030, 0x303f, 0x3041, 0x3097,
       0x309b, 0x3100, 0x3105, 0x3130, 0x3131, 0x3164, 0x3165, 0x318f,
       0x3190, 0x31e6, 0x31ef, 0x321f, 0x3220, 0x3248, 0x3250, 0xa48d,
       0xa490, 0xa4c7, 0xa960, 0xa97d, 0xac00, 0xd7a4, 0xf900, 0xfb00,
       0xfe10, 0xfe1a, 0xfe30, 0xfe53, 0xfe54, 0xfe67, 0xfe68, 0xfe6c,
       0xff01, 0xff61, 0xffe0, 0xffe7, 0x16fe0, 0x16fe4, 0x16ff2,
       0x16ff7, 0x17000, 0x18cd6, 0x18cff, 0x18d1f, 0x18d80, 0x18df3,
       0x1aff0, 0x1aff4, 0x1aff5, 0x1affc, 0x1affd, 0x1afff, 0x1b000,
       0x1b123, 0x1b132, 0x1b133, 0x1b150, 0x1b153, 0x1b155, 0x1b156,
       0x1b164, 0x1b168, 0x1b170, 0x1b2fc, 0x1d300, 0x1d357, 0x1d360,
       0x1d377, 0x1f004, 0x1f005, 0x1f0cf, 0x1f0d0, 0x1f18e, 0x1f18f,
       0x1f191, 0x1f19b, 0x1f200, 0x1f203, 0x1f210, 0x1f23c, 0x1f240,
       0x1f249, 0x1f250, 0x1f252, 0x1f260, 0x1f266, 0x1f300, 0x1f321,
       0x1f32d, 0x1f336, 0x1f337, 0x1f37d, 0x1f37e, 0x1f394, 0x1f3a0,
       0x1f3cb, 0x1f3cf, 0x1f3d4, 0x1f3e0, 0x1f3f1, 0x1f3f4, 0x1f3f5,
       0x1f3f8, 0x1f43f, 0x1f440, 0x1f441, 0x1f442, 0x1f4fd, 0x1f4ff,
       0x1f53e, 0x1f54b, 0x1f54f, 0x1f550, 0x1f568, 0x1f57a, 0x1f57b,
       0x1f595, 0x1f597, 0x1f5a4, 0x1f5a5, 0x1f5fb, 0x1f650, 0x1f680,
       0x1f6c6, 0x1f6cc, 0x1f6cd, 0x1f6d0, 0x1f6d3, 0x1f6d5, 0x1f6d9,
       0x1f6dc, 0x1f6e0, 0x1f6eb, 0x1f6ed, 0x1f6f4, 0x1f6fd, 0x1f7e0,
       0x1f7ec, 0x1f7f0, 0x1f7f1, 0x1f90c, 0x1f93b, 0x1f93c, 0x1f946,
       0x1f947, 0x1fa00, 0x1fa70, 0x1fa7d, 0x1fa80, 0x1fa8b, 0x1fa8e,
       0x1fac7, 0x1fac8, 0x1fac9, 0x1facd, 0x1fadd, 0x1fadf, 0x1faeb,
       0x1faef, 0x1faf9, 0x20000, 0x2fffe, 0x30000, 0x3fffe] }

/-
  The characters without a column that keep Arabic letters
  apart which stand around them.
-/
def unjoining : CharSet :=
  { bounds :=
      [0x605, 0x606, 0x890, 0x892, 0x8e2, 0x8e3, 0x9be, 0x9bf, 0x9d7,
       0x9d8, 0xb3e, 0xb3f, 0xb57, 0xb58, 0xbbe, 0xbbf, 0xbd7, 0xbd8,
       0xcc0, 0xcc1, 0xcc2, 0xcc3, 0xcc7, 0xcc9, 0xcca, 0xccc, 0xcd5,
       0xcd7, 0xd3e, 0xd3f, 0xd4e, 0xd4f, 0xd57, 0xd58, 0xdcf, 0xdd0,
       0xddf, 0xde0, 0x1160, 0x1200, 0x1715, 0x1716, 0x1734, 0x1735,
       0x180e, 0x180f, 0x1b35, 0x1b36, 0x1b3b, 0x1b3c, 0x1b3d, 0x1b3e,
       0x1b43, 0x1b45, 0x1baa, 0x1bab, 0x1bf2, 0x1bf4, 0x200c, 0x200e,
       0x2065, 0x206a, 0x302e, 0x3030, 0x3164, 0x3165, 0xa8fa, 0xa8fb,
       0xa953, 0xa954, 0xa9c0, 0xa9c1, 0xd7b0, 0xd7c7, 0xd7cb, 0xd7fc,
       0xff9e, 0xffa1, 0xfff0, 0xfff9, 0x111c0, 0x111c1, 0x111c2,
       0x111c4, 0x11235, 0x11236, 0x1133e, 0x1133f, 0x1134d, 0x1134e,
       0x11357, 0x11358, 0x113b8, 0x113b9, 0x113c2, 0x113c3, 0x113c5,
       0x113c6, 0x113c7, 0x113ca, 0x113cf, 0x113d0, 0x113d1, 0x113d2,
       0x114b0, 0x114b1, 0x114bd, 0x114be, 0x115af, 0x115b0, 0x116b6,
       0x116b7, 0x11930, 0x11931, 0x1193d, 0x1193e, 0x1193f, 0x11940,
       0x11941, 0x11942, 0x11a84, 0x11a8a, 0x11d46, 0x11d47, 0x11f02,
       0x11f03, 0x11f41, 0x11f42, 0x16ff0, 0x16ff2, 0x1d165, 0x1d167,
       0x1d16d, 0x1d173, 0xe0000, 0xe0001, 0xe0002, 0xe0020, 0xe0080,
       0xe0100, 0xe01f0, 0xe1000] }

end CharSet

end TradeTape
