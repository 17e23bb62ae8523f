import Mathlib.Data.Int.Notation
import Mathlib.Data.Nat.Notation

/-! # The matrices of the transforms

Row `k` of a matrix is the basis function of frequency `k`. The forward and the inverse tables of a
transform are the same. -/

namespace ECM.CommonLib.RomTr

/-- `matrix[0]`, which runs through all rows. -/
def rowMajor (matrix : List (List ℤ)) (i : ℕ) : ℤ := matrix.flatten.getD i 0

/-! ## DCT-II -/

def DEFINE_DCT2_P2_MATRIX (a : ℤ) : List (List ℤ) :=
  [[a, a],
   [a, -a]]

def g_trCoreDCT2P2 : List (List ℤ) := DEFINE_DCT2_P2_MATRIX 64

def DEFINE_DCT2_P4_MATRIX (a b c : ℤ) : List (List ℤ) :=
  [[a, a, a, a],
   [b, c, -c, -b],
   [a, -a, -a, a],
   [c, -b, b, -c]]

def g_trCoreDCT2P4 : List (List ℤ) := DEFINE_DCT2_P4_MATRIX 64 83 36

def DEFINE_DCT2_P8_MATRIX (a b c d e f g : ℤ) : List (List ℤ) :=
  [[a, a, a, a, a, a, a, a],
   [d, e, f, g, -g, -f, -e, -d],
   [b, c, -c, -b, -b, -c, c, b],
   [e, -g, -d, -f, f, d, g, -e],
   [a, -a, -a, a, a, -a, -a, a],
   [f, -d, g, e, -e, -g, d, -f],
   [c, -b, b, -c, -c, b, -b, c],
   [g, -f, e, -d, d, -e, f, -g]]

def g_trCoreDCT2P8 : List (List ℤ) := DEFINE_DCT2_P8_MATRIX 64 83 36 89 75 50 18

def DEFINE_DCT2_P16_MATRIX (a b c d e f g h i j k l m n o : ℤ) : List (List ℤ) :=
  [[a, a, a, a, a, a, a, a, a, a, a, a, a, a, a, a],
   [h, i, j, k, l, m, n, o, -o, -n, -m, -l, -k, -j, -i, -h],
   [d, e, f, g, -g, -f, -e, -d, -d, -e, -f, -g, g, f, e, d],
   [i, l, o, -m, -j, -h, -k, -n, n, k, h, j, m, -o, -l, -i],
   [b, c, -c, -b, -b, -c, c, b, b, c, -c, -b, -b, -c, c, b],
   [j, o, -k, -i, -n, l, h, m, -m, -h, -l, n, i, k, -o, -j],
   [e, -g, -d, -f, f, d, g, -e, -e, g, d, f, -f, -d, -g, e],
   [k, -m, -i, o, h, n, -j, -l, l, j, -n, -h, -o, i, m, -k],
   [a, -a, -a, a, a, -a, -a, a, a, -a, -a, a, a, -a, -a, a],
   [l, -j, -n, h, -o, -i, m, k, -k, -m, i, o, -h, n, j, -l],
   [f, -d, g, e, -e, -g, d, -f, -f, d, -g, -e, e, g, -d, f],
   [m, -h, l, n, -i, k, o, -j, j, -o, -k, i, -n, -l, h, -m],
   [c, -b, b, -c, -c, b, -b, c, c, -b, b, -c, -c, b, -b, c],
   [n, -k, h, -j, m, o, -l, i, -i, l, -o, -m, j, -h, k, -n],
   [g, -f, e, -d, d, -e, f, -g, -g, f, -e, d, -d, e, -f, g],
   [o, -n, m, -l, k, -j, i, -h, h, -i, j, -k, l, -m, n, -o]]

def g_trCoreDCT2P16 : List (List ℤ) := DEFINE_DCT2_P16_MATRIX 64 83 36 89 75 50 18 90 87 80 70 57 43 25 9

def DEFINE_DCT2_P32_MATRIX (a b c d e f g h i j k l m n o p q r s t u v w x y z A B C D E : ℤ) : List (List ℤ) :=
  [[a, a, a, a, a, a, a, a, a, a, a, a, a, a, a, a, a, a, a, a, a, a, a, a, a, a, a, a, a, a, a, a],
   [p, q, r, s, t, u, v, w, x, y, z, A, B, C, D, E, -E, -D, -C, -B, -A, -z, -y, -x, -w, -v, -u, -t, -s, -r, -q,
    -p],
   [h, i, j, k, l, m, n, o, -o, -n, -m, -l, -k, -j, -i, -h, -h, -i, -j, -k, -l, -m, -n, -o, o, n, m, l, k, j, i,
    h],
   [q, t, w, z, C, -E, -B, -y, -v, -s, -p, -r, -u, -x, -A, -D, D, A, x, u, r, p, s, v, y, B, E, -C, -z, -w, -t,
    -q],
   [d, e, f, g, -g, -f, -e, -d, -d, -e, -f, -g, g, f, e, d, d, e, f, g, -g, -f, -e, -d, -d, -e, -f, -g, g, f, e,
    d],
   [r, w, B, -D, -y, -t, -p, -u, -z, -E, A, v, q, s, x, C, -C, -x, -s, -q, -v, -A, E, z, u, p, t, y, D, -B, -w,
    -r],
   [i, l, o, -m, -j, -h, -k, -n, n, k, h, j, m, -o, -l, -i, -i, -l, -o, m, j, h, k, n, -n, -k, -h, -j, -m, o, l,
    i],
   [s, z, -D, -w, -p, -v, -C, A, t, r, y, -E, -x, -q, -u, -B, B, u, q, x, E, -y, -r, -t, -A, C, v, p, w, D, -z,
    -s],
   [b, c, -c, -b, -b, -c, c, b, b, c, -c, -b, -b, -c, c, b, b, c, -c, -b, -b, -c, c, b, b, c, -c, -b, -b, -c, c,
    b],
   [t, C, -y, -p, -x, D, u, s, B, -z, -q, -w, E, v, r, A, -A, -r, -v, -E, w, q, z, -B, -s, -u, -D, x, p, y, -C,
    -t],
   [j, o, -k, -i, -n, l, h, m, -m, -h, -l, n, i, k, -o, -j, -j, -o, k, i, n, -l, -h, -m, m, h, l, -n, -i, -k, o,
    j],
   [u, -E, -t, -v, D, s, w, -C, -r, -x, B, q, y, -A, -p, -z, z, p, A, -y, -q, -B, x, r, C, -w, -s, -D, v, t, E,
    -u],
   [e, -g, -d, -f, f, d, g, -e, -e, g, d, f, -f, -d, -g, e, e, -g, -d, -f, f, d, g, -e, -e, g, d, f, -f, -d, -g,
    e],
   [v, -B, -p, -C, u, w, -A, -q, -D, t, x, -z, -r, -E, s, y, -y, -s, E, r, z, -x, -t, D, q, A, -w, -u, C, p, B,
    -v],
   [k, -m, -i, o, h, n, -j, -l, l, j, -n, -h, -o, i, m, -k, -k, m, i, -o, -h, -n, j, l, -l, -j, n, h, o, -i, -m,
    k],
   [w, -y, -u, A, s, -C, -q, E, p, D, -r, -B, t, z, -v, -x, x, v, -z, -t, B, r, -D, -p, -E, q, C, -s, -A, u, y,
    -w],
   [a, -a, -a, a, a, -a, -a, a, a, -a, -a, a, a, -a, -a, a, a, -a, -a, a, a, -a, -a, a, a, -a, -a, a, a, -a, -a,
    a],
   [x, -v, -z, t, B, -r, -D, p, -E, -q, C, s, -A, -u, y, w, -w, -y, u, A, -s, -C, q, E, -p, D, r, -B, -t, z, v,
    -x],
   [l, -j, -n, h, -o, -i, m, k, -k, -m, i, o, -h, n, j, -l, -l, j, n, -h, o, i, -m, -k, k, m, -i, -o, h, -n, -j,
    l],
   [y, -s, -E, r, -z, -x, t, D, -q, A, w, -u, -C, p, -B, -v, v, B, -p, C, u, -w, -A, q, -D, -t, x, z, -r, E, s,
    -y],
   [f, -d, g, e, -e, -g, d, -f, -f, d, -g, -e, e, g, -d, f, f, -d, g, e, -e, -g, d, -f, -f, d, -g, -e, e, g, -d,
    f],
   [z, -p, A, y, -q, B, x, -r, C, w, -s, D, v, -t, E, u, -u, -E, t, -v, -D, s, -w, -C, r, -x, -B, q, -y, -A, p,
    -z],
   [m, -h, l, n, -i, k, o, -j, j, -o, -k, i, -n, -l, h, -m, -m, h, -l, -n, i, -k, -o, j, -j, o, k, -i, n, l, -h,
    m],
   [A, -r, v, -E, -w, q, -z, -B, s, -u, D, x, -p, y, C, -t, t, -C, -y, p, -x, -D, u, -s, B, z, -q, w, E, -v, r,
    -A],
   [c, -b, b, -c, -c, b, -b, c, c, -b, b, -c, -c, b, -b, c, c, -b, b, -c, -c, b, -b, c, c, -b, b, -c, -c, b, -b,
    c],
   [B, -u, q, -x, E, y, -r, t, -A, -C, v, -p, w, -D, -z, s, -s, z, D, -w, p, -v, C, A, -t, r, -y, -E, x, -q, u,
    -B],
   [n, -k, h, -j, m, o, -l, i, -i, l, -o, -m, j, -h, k, -n, -n, k, -h, j, -m, -o, l, -i, i, -l, o, m, -j, h, -k,
    n],
   [C, -x, s, -q, v, -A, -E, z, -u, p, -t, y, -D, -B, w, -r, r, -w, B, D, -y, t, -p, u, -z, E, A, -v, q, -s, x,
    -C],
   [g, -f, e, -d, d, -e, f, -g, -g, f, -e, d, -d, e, -f, g, g, -f, e, -d, d, -e, f, -g, -g, f, -e, d, -d, e, -f,
    g],
   [D, -A, x, -u, r, -p, s, -v, y, -B, E, C, -z, w, -t, q, -q, t, -w, z, -C, -E, B, -y, v, -s, p, -r, u, -x, A,
    -D],
   [o, -n, m, -l, k, -j, i, -h, h, -i, j, -k, l, -m, n, -o, -o, n, -m, l, -k, j, -i, h, -h, i, -j, k, -l, m, -n,
    o],
   [E, -D, C, -B, A, -z, y, -x, w, -v, u, -t, s, -r, q, -p, p, -q, r, -s, t, -u, v, -w, x, -y, z, -A, B, -C, D,
    -E]]

def g_trCoreDCT2P32 : List (List ℤ) :=
  DEFINE_DCT2_P32_MATRIX 64 83 36 89 75 50 18 90 87 80 70 57 43 25 9 90 90 88 85 82 78 73 67 61 54 46 38 31 22
    13 4

/-- The parameters `at` and `by` of the source are `at_` and `by_`. -/
def DEFINE_DCT2_P64_MATRIX (aa ab ac ad ae af ag ah ai aj ak al am an ao ap aq ar as at_ au av aw ax ay az ba
    bb bc bd be bf bg bh bi bj bk bl bm bn bo bp bq br bs bt bu bv bw bx by_ bz ca cb cc cd ce cf cg ch ci cj
    ck : ℤ) : List (List ℤ) :=
  [[aa, aa, aa, aa, aa, aa, aa, aa, aa, aa, aa, aa, aa, aa, aa, aa, aa, aa, aa, aa, aa, aa, aa, aa, aa, aa, aa,
    aa, aa, aa, aa, aa, aa, aa, aa, aa, aa, aa, aa, aa, aa, aa, aa, aa, aa, aa, aa, aa, aa, aa, aa, aa, aa, aa,
    aa, aa, aa, aa, aa, aa, aa, aa, aa, aa],
   [bf, bg, bh, bi, bj, bk, bl, bm, bn, bo, bp, bq, br, bs, bt, bu, bv, bw, bx, by_, bz, ca, cb, cc, cd, ce, cf,
    cg, ch, ci, cj, ck, -ck, -cj, -ci, -ch, -cg, -cf, -ce, -cd, -cc, -cb, -ca, -bz, -by_, -bx, -bw, -bv, -bu,
    -bt, -bs, -br, -bq, -bp, -bo, -bn, -bm, -bl, -bk, -bj, -bi, -bh, -bg, -bf],
   [ap, aq, ar, as, at_, au, av, aw, ax, ay, az, ba, bb, bc, bd, be, -be, -bd, -bc, -bb, -ba, -az, -ay, -ax,
    -aw, -av, -au, -at_, -as, -ar, -aq, -ap, -ap, -aq, -ar, -as, -at_, -au, -av, -aw, -ax, -ay, -az, -ba, -bb,
    -bc, -bd, -be, be, bd, bc, bb, ba, az, ay, ax, aw, av, au, at_, as, ar, aq, ap],
   [bg, bj, bm, bp, bs, bv, by_, cb, ce, ch, ck, -ci, -cf, -cc, -bz, -bw, -bt, -bq, -bn, -bk, -bh, -bf, -bi,
    -bl, -bo, -br, -bu, -bx, -ca, -cd, -cg, -cj, cj, cg, cd, ca, bx, bu, br, bo, bl, bi, bf, bh, bk, bn, bq, bt,
    bw, bz, cc, cf, ci, -ck, -ch, -ce, -cb, -by_, -bv, -bs, -bp, -bm, -bj, -bg],
   [ah, ai, aj, ak, al, am, an, ao, -ao, -an, -am, -al, -ak, -aj, -ai, -ah, -ah, -ai, -aj, -ak, -al, -am, -an,
    -ao, ao, an, am, al, ak, aj, ai, ah, ah, ai, aj, ak, al, am, an, ao, -ao, -an, -am, -al, -ak, -aj, -ai, -ah,
    -ah, -ai, -aj, -ak, -al, -am, -an, -ao, ao, an, am, al, ak, aj, ai, ah],
   [bh, bm, br, bw, cb, cg, -ck, -cf, -ca, -bv, -bq, -bl, -bg, -bi, -bn, -bs, -bx, -cc, -ch, cj, ce, bz, bu, bp,
    bk, bf, bj, bo, bt, by_, cd, ci, -ci, -cd, -by_, -bt, -bo, -bj, -bf, -bk, -bp, -bu, -bz, -ce, -cj, ch, cc,
    bx, bs, bn, bi, bg, bl, bq, bv, ca, cf, ck, -cg, -cb, -bw, -br, -bm, -bh],
   [aq, at_, aw, az, bc, -be, -bb, -ay, -av, -as, -ap, -ar, -au, -ax, -ba, -bd, bd, ba, ax, au, ar, ap, as, av,
    ay, bb, be, -bc, -az, -aw, -at_, -aq, -aq, -at_, -aw, -az, -bc, be, bb, ay, av, as, ap, ar, au, ax, ba, bd,
    -bd, -ba, -ax, -au, -ar, -ap, -as, -av, -ay, -bb, -be, bc, az, aw, at_, aq],
   [bi, bp, bw, cd, ck, -ce, -bx, -bq, -bj, -bh, -bo, -bv, -cc, -cj, cf, by_, br, bk, bg, bn, bu, cb, ci, -cg,
    -bz, -bs, -bl, -bf, -bm, -bt, -ca, -ch, ch, ca, bt, bm, bf, bl, bs, bz, cg, -ci, -cb, -bu, -bn, -bg, -bk,
    -br, -by_, -cf, cj, cc, bv, bo, bh, bj, bq, bx, ce, -ck, -cd, -bw, -bp, -bi],
   [ad, ae, af, ag, -ag, -af, -ae, -ad, -ad, -ae, -af, -ag, ag, af, ae, ad, ad, ae, af, ag, -ag, -af, -ae, -ad,
    -ad, -ae, -af, -ag, ag, af, ae, ad, ad, ae, af, ag, -ag, -af, -ae, -ad, -ad, -ae, -af, -ag, ag, af, ae, ad,
    ad, ae, af, ag, -ag, -af, -ae, -ad, -ad, -ae, -af, -ag, ag, af, ae, ad],
   [bj, bs, cb, ck, -cc, -bt, -bk, -bi, -br, -ca, -cj, cd, bu, bl, bh, bq, bz, ci, -ce, -bv, -bm, -bg, -bp,
    -by_, -ch, cf, bw, bn, bf, bo, bx, cg, -cg, -bx, -bo, -bf, -bn, -bw, -cf, ch, by_, bp, bg, bm, bv, ce, -ci,
    -bz, -bq, -bh, -bl, -bu, -cd, cj, ca, br, bi, bk, bt, cc, -ck, -cb, -bs, -bj],
   [ar, aw, bb, -bd, -ay, -at_, -ap, -au, -az, -be, ba, av, aq, as, ax, bc, -bc, -ax, -as, -aq, -av, -ba, be,
    az, au, ap, at_, ay, bd, -bb, -aw, -ar, -ar, -aw, -bb, bd, ay, at_, ap, au, az, be, -ba, -av, -aq, -as, -ax,
    -bc, bc, ax, as, aq, av, ba, -be, -az, -au, -ap, -at_, -ay, -bd, bb, aw, ar],
   [bk, bv, cg, -ce, -bt, -bi, -bm, -bx, -ci, cc, br, bg, bo, bz, ck, -ca, -bp, -bf, -bq, -cb, cj, by_, bn, bh,
    bs, cd, -ch, -bw, -bl, -bj, -bu, -cf, cf, bu, bj, bl, bw, ch, -cd, -bs, -bh, -bn, -by_, -cj, cb, bq, bf, bp,
    ca, -ck, -bz, -bo, -bg, -br, -cc, ci, bx, bm, bi, bt, ce, -cg, -bv, -bk],
   [ai, al, ao, -am, -aj, -ah, -ak, -an, an, ak, ah, aj, am, -ao, -al, -ai, -ai, -al, -ao, am, aj, ah, ak, an,
    -an, -ak, -ah, -aj, -am, ao, al, ai, ai, al, ao, -am, -aj, -ah, -ak, -an, an, ak, ah, aj, am, -ao, -al, -ai,
    -ai, -al, -ao, am, aj, ah, ak, an, -an, -ak, -ah, -aj, -am, ao, al, ai],
   [bl, by_, -ck, -bx, -bk, -bm, -bz, cj, bw, bj, bn, ca, -ci, -bv, -bi, -bo, -cb, ch, bu, bh, bp, cc, -cg, -bt,
    -bg, -bq, -cd, cf, bs, bf, br, ce, -ce, -br, -bf, -bs, -cf, cd, bq, bg, bt, cg, -cc, -bp, -bh, -bu, -ch, cb,
    bo, bi, bv, ci, -ca, -bn, -bj, -bw, -cj, bz, bm, bk, bx, ck, -by_, -bl],
   [as, az, -bd, -aw, -ap, -av, -bc, ba, at_, ar, ay, -be, -ax, -aq, -au, -bb, bb, au, aq, ax, be, -ay, -ar,
    -at_, -ba, bc, av, ap, aw, bd, -az, -as, -as, -az, bd, aw, ap, av, bc, -ba, -at_, -ar, -ay, be, ax, aq, au,
    bb, -bb, -au, -aq, -ax, -be, ay, ar, at_, ba, -bc, -av, -ap, -aw, -bd, az, as],
   [bm, cb, -cf, -bq, -bi, -bx, cj, bu, bf, bt, ci, -by_, -bj, -bp, -ce, cc, bn, bl, ca, -cg, -br, -bh, -bw, ck,
    bv, bg, bs, ch, -bz, -bk, -bo, -cd, cd, bo, bk, bz, -ch, -bs, -bg, -bv, -ck, bw, bh, br, cg, -ca, -bl, -bn,
    -cc, ce, bp, bj, by_, -ci, -bt, -bf, -bu, -cj, bx, bi, bq, cf, -cb, -bm],
   [ab, ac, -ac, -ab, -ab, -ac, ac, ab, ab, ac, -ac, -ab, -ab, -ac, ac, ab, ab, ac, -ac, -ab, -ab, -ac, ac, ab,
    ab, ac, -ac, -ab, -ab, -ac, ac, ab, ab, ac, -ac, -ab, -ab, -ac, ac, ab, ab, ac, -ac, -ab, -ab, -ac, ac, ab,
    ab, ac, -ac, -ab, -ab, -ac, ac, ab, ab, ac, -ac, -ab, -ab, -ac, ac, ab],
   [bn, ce, -ca, -bj, -br, -ci, bw, bf, bv, -cj, -bs, -bi, -bz, cf, bo, bm, cd, -cb, -bk, -bq, -ch, bx, bg, bu,
    -ck, -bt, -bh, -by_, cg, bp, bl, cc, -cc, -bl, -bp, -cg, by_, bh, bt, ck, -bu, -bg, -bx, ch, bq, bk, cb,
    -cd, -bm, -bo, -cf, bz, bi, bs, cj, -bv, -bf, -bw, ci, br, bj, ca, -ce, -bn],
   [at_, bc, -ay, -ap, -ax, bd, au, as, bb, -az, -aq, -aw, be, av, ar, ba, -ba, -ar, -av, -be, aw, aq, az, -bb,
    -as, -au, -bd, ax, ap, ay, -bc, -at_, -at_, -bc, ay, ap, ax, -bd, -au, -as, -bb, az, aq, aw, -be, -av, -ar,
    -ba, ba, ar, av, be, -aw, -aq, -az, bb, as, au, bd, -ax, -ap, -ay, bc, at_],
   [bo, ch, -bv, -bh, -ca, cc, bj, bt, -cj, -bq, -bm, -cf, bx, bf, by_, -ce, -bl, -br, -ck, bs, bk, cd, -bz,
    -bg, -bw, cg, bn, bp, ci, -bu, -bi, -cb, cb, bi, bu, -ci, -bp, -bn, -cg, bw, bg, bz, -cd, -bk, -bs, ck, br,
    bl, ce, -by_, -bf, -bx, cf, bm, bq, cj, -bt, -bj, -cc, ca, bh, bv, -ch, -bo],
   [aj, ao, -ak, -ai, -an, al, ah, am, -am, -ah, -al, an, ai, ak, -ao, -aj, -aj, -ao, ak, ai, an, -al, -ah, -am,
    am, ah, al, -an, -ai, -ak, ao, aj, aj, ao, -ak, -ai, -an, al, ah, am, -am, -ah, -al, an, ai, ak, -ao, -aj,
    -aj, -ao, ak, ai, an, -al, -ah, -am, am, ah, al, -an, -ai, -ak, ao, aj],
   [bp, ck, -bq, -bo, -cj, br, bn, ci, -bs, -bm, -ch, bt, bl, cg, -bu, -bk, -cf, bv, bj, ce, -bw, -bi, -cd, bx,
    bh, cc, -by_, -bg, -cb, bz, bf, ca, -ca, -bf, -bz, cb, bg, by_, -cc, -bh, -bx, cd, bi, bw, -ce, -bj, -bv,
    cf, bk, bu, -cg, -bl, -bt, ch, bm, bs, -ci, -bn, -br, cj, bo, bq, -ck, -bp],
   [au, -be, -at_, -av, bd, as, aw, -bc, -ar, -ax, bb, aq, ay, -ba, -ap, -az, az, ap, ba, -ay, -aq, -bb, ax, ar,
    bc, -aw, -as, -bd, av, at_, be, -au, -au, be, at_, av, -bd, -as, -aw, bc, ar, ax, -bb, -aq, -ay, ba, ap, az,
    -az, -ap, -ba, ay, aq, bb, -ax, -ar, -bc, aw, as, bd, -av, -at_, -be, au],
   [bq, -ci, -bl, -bv, cd, bg, ca, -by_, -bi, -cf, bt, bn, ck, -bo, -bs, cg, bj, bx, -cb, -bf, -cc, bw, bk, ch,
    -br, -bp, cj, bm, bu, -ce, -bh, -bz, bz, bh, ce, -bu, -bm, -cj, bp, br, -ch, -bk, -bw, cc, bf, cb, -bx, -bj,
    -cg, bs, bo, -ck, -bn, -bt, cf, bi, by_, -ca, -bg, -cd, bv, bl, ci, -bq],
   [ae, -ag, -ad, -af, af, ad, ag, -ae, -ae, ag, ad, af, -af, -ad, -ag, ae, ae, -ag, -ad, -af, af, ad, ag, -ae,
    -ae, ag, ad, af, -af, -ad, -ag, ae, ae, -ag, -ad, -af, af, ad, ag, -ae, -ae, ag, ad, af, -af, -ad, -ag, ae,
    ae, -ag, -ad, -af, af, ad, ag, -ae, -ae, ag, ad, af, -af, -ad, -ag, ae],
   [br, -cf, -bg, -cc, bu, bo, -ci, -bj, -bz, bx, bl, ck, -bm, -bw, ca, bi, ch, -bp, -bt, cd, bf, ce, -bs, -bq,
    cg, bh, cb, -bv, -bn, cj, bk, by_, -by_, -bk, -cj, bn, bv, -cb, -bh, -cg, bq, bs, -ce, -bf, -cd, bt, bp,
    -ch, -bi, -ca, bw, bm, -ck, -bl, -bx, bz, bj, ci, -bo, -bu, cc, bg, cf, -br],
   [av, -bb, -ap, -bc, au, aw, -ba, -aq, -bd, at_, ax, -az, -ar, -be, as, ay, -ay, -as, be, ar, az, -ax, -at_,
    bd, aq, ba, -aw, -au, bc, ap, bb, -av, -av, bb, ap, bc, -au, -aw, ba, aq, bd, -at_, -ax, az, ar, be, -as,
    -ay, ay, as, -be, -ar, -az, ax, at_, -bd, -aq, -ba, aw, au, -bc, -ap, -bb, av],
   [bs, -cc, -bi, -cj, bl, bz, -bv, -bp, cf, bf, cg, -bo, -bw, by_, bm, -ci, -bh, -cd, br, bt, -cb, -bj, -ck,
    bk, ca, -bu, -bq, ce, bg, ch, -bn, -bx, bx, bn, -ch, -bg, -ce, bq, bu, -ca, -bk, ck, bj, cb, -bt, -br, cd,
    bh, ci, -bm, -by_, bw, bo, -cg, -bf, -cf, bp, bv, -bz, -bl, cj, bi, cc, -bs],
   [ak, -am, -ai, ao, ah, an, -aj, -al, al, aj, -an, -ah, -ao, ai, am, -ak, -ak, am, ai, -ao, -ah, -an, aj, al,
    -al, -aj, an, ah, ao, -ai, -am, ak, ak, -am, -ai, ao, ah, an, -aj, -al, al, aj, -an, -ah, -ao, ai, am, -ak,
    -ak, am, ai, -ao, -ah, -an, aj, al, -al, -aj, an, ah, ao, -ai, -am, ak],
   [bt, -bz, -bn, cf, bh, ck, -bi, -ce, bo, by_, -bu, -bs, ca, bm, -cg, -bg, -cj, bj, cd, -bp, -bx, bv, br, -cb,
    -bl, ch, bf, ci, -bk, -cc, bq, bw, -bw, -bq, cc, bk, -ci, -bf, -ch, bl, cb, -br, -bv, bx, bp, -cd, -bj, cj,
    bg, cg, -bm, -ca, bs, bu, -by_, -bo, ce, bi, -ck, -bh, -cf, bn, bz, -bt],
   [aw, -ay, -au, ba, as, -bc, -aq, be, ap, bd, -ar, -bb, at_, az, -av, -ax, ax, av, -az, -at_, bb, ar, -bd,
    -ap, -be, aq, bc, -as, -ba, au, ay, -aw, -aw, ay, au, -ba, -as, bc, aq, -be, -ap, -bd, ar, bb, -at_, -az,
    av, ax, -ax, -av, az, at_, -bb, -ar, bd, ap, be, -aq, -bc, as, ba, -au, -ay, aw],
   [bu, -bw, -bs, by_, bq, -ca, -bo, cc, bm, -ce, -bk, cg, bi, -ci, -bg, ck, bf, cj, -bh, -ch, bj, cf, -bl, -cd,
    bn, cb, -bp, -bz, br, bx, -bt, -bv, bv, bt, -bx, -br, bz, bp, -cb, -bn, cd, bl, -cf, -bj, ch, bh, -cj, -bf,
    -ck, bg, ci, -bi, -cg, bk, ce, -bm, -cc, bo, ca, -bq, -by_, bs, bw, -bu],
   [aa, -aa, -aa, aa, aa, -aa, -aa, aa, aa, -aa, -aa, aa, aa, -aa, -aa, aa, aa, -aa, -aa, aa, aa, -aa, -aa, aa,
    aa, -aa, -aa, aa, aa, -aa, -aa, aa, aa, -aa, -aa, aa, aa, -aa, -aa, aa, aa, -aa, -aa, aa, aa, -aa, -aa, aa,
    aa, -aa, -aa, aa, aa, -aa, -aa, aa, aa, -aa, -aa, aa, aa, -aa, -aa, aa],
   [bv, -bt, -bx, br, bz, -bp, -cb, bn, cd, -bl, -cf, bj, ch, -bh, -cj, bf, -ck, -bg, ci, bi, -cg, -bk, ce, bm,
    -cc, -bo, ca, bq, -by_, -bs, bw, bu, -bu, -bw, bs, by_, -bq, -ca, bo, cc, -bm, -ce, bk, cg, -bi, -ci, bg,
    ck, -bf, cj, bh, -ch, -bj, cf, bl, -cd, -bn, cb, bp, -bz, -br, bx, bt, -bv],
   [ax, -av, -az, at_, bb, -ar, -bd, ap, -be, -aq, bc, as, -ba, -au, ay, aw, -aw, -ay, au, ba, -as, -bc, aq, be,
    -ap, bd, ar, -bb, -at_, az, av, -ax, -ax, av, az, -at_, -bb, ar, bd, -ap, be, aq, -bc, -as, ba, au, -ay,
    -aw, aw, ay, -au, -ba, as, bc, -aq, -be, ap, -bd, -ar, bb, at_, -az, -av, ax],
   [bw, -bq, -cc, bk, ci, -bf, ch, bl, -cb, -br, bv, bx, -bp, -cd, bj, cj, -bg, cg, bm, -ca, -bs, bu, by_, -bo,
    -ce, bi, ck, -bh, cf, bn, -bz, -bt, bt, bz, -bn, -cf, bh, -ck, -bi, ce, bo, -by_, -bu, bs, ca, -bm, -cg, bg,
    -cj, -bj, cd, bp, -bx, -bv, br, cb, -bl, -ch, bf, -ci, -bk, cc, bq, -bw],
   [al, -aj, -an, ah, -ao, -ai, am, ak, -ak, -am, ai, ao, -ah, an, aj, -al, -al, aj, an, -ah, ao, ai, -am, -ak,
    ak, am, -ai, -ao, ah, -an, -aj, al, al, -aj, -an, ah, -ao, -ai, am, ak, -ak, -am, ai, ao, -ah, an, aj, -al,
    -al, aj, an, -ah, ao, ai, -am, -ak, ak, am, -ai, -ao, ah, -an, -aj, al],
   [bx, -bn, -ch, bg, -ce, -bq, bu, ca, -bk, -ck, bj, -cb, -bt, br, cd, -bh, ci, bm, -by_, -bw, bo, cg, -bf, cf,
    bp, -bv, -bz, bl, cj, -bi, cc, bs, -bs, -cc, bi, -cj, -bl, bz, bv, -bp, -cf, bf, -cg, -bo, bw, by_, -bm,
    -ci, bh, -cd, -br, bt, cb, -bj, ck, bk, -ca, -bu, bq, ce, -bg, ch, bn, -bx],
   [ay, -as, -be, ar, -az, -ax, at_, bd, -aq, ba, aw, -au, -bc, ap, -bb, -av, av, bb, -ap, bc, au, -aw, -ba, aq,
    -bd, -at_, ax, az, -ar, be, as, -ay, -ay, as, be, -ar, az, ax, -at_, -bd, aq, -ba, -aw, au, bc, -ap, bb, av,
    -av, -bb, ap, -bc, -au, aw, ba, -aq, bd, at_, -ax, -az, ar, -be, -as, ay],
   [by_, -bk, cj, bn, -bv, -cb, bh, -cg, -bq, bs, ce, -bf, cd, bt, -bp, -ch, bi, -ca, -bw, bm, ck, -bl, bx, bz,
    -bj, ci, bo, -bu, -cc, bg, -cf, -br, br, cf, -bg, cc, bu, -bo, -ci, bj, -bz, -bx, bl, -ck, -bm, bw, ca, -bi,
    ch, bp, -bt, -cd, bf, -ce, -bs, bq, cg, -bh, cb, bv, -bn, -cj, bk, -by_],
   [af, -ad, ag, ae, -ae, -ag, ad, -af, -af, ad, -ag, -ae, ae, ag, -ad, af, af, -ad, ag, ae, -ae, -ag, ad, -af,
    -af, ad, -ag, -ae, ae, ag, -ad, af, af, -ad, ag, ae, -ae, -ag, ad, -af, -af, ad, -ag, -ae, ae, ag, -ad, af,
    af, -ad, ag, ae, -ae, -ag, ad, -af, -af, ad, -ag, -ae, ae, ag, -ad, af],
   [bz, -bh, ce, bu, -bm, cj, bp, -br, -ch, bk, -bw, -cc, bf, -cb, -bx, bj, -cg, -bs, bo, ck, -bn, bt, cf, -bi,
    by_, ca, -bg, cd, bv, -bl, ci, bq, -bq, -ci, bl, -bv, -cd, bg, -ca, -by_, bi, -cf, -bt, bn, -ck, -bo, bs,
    cg, -bj, bx, cb, -bf, cc, bw, -bk, ch, br, -bp, -cj, bm, -bu, -ce, bh, -bz],
   [az, -ap, ba, ay, -aq, bb, ax, -ar, bc, aw, -as, bd, av, -at_, be, au, -au, -be, at_, -av, -bd, as, -aw, -bc,
    ar, -ax, -bb, aq, -ay, -ba, ap, -az, -az, ap, -ba, -ay, aq, -bb, -ax, ar, -bc, -aw, as, -bd, -av, at_, -be,
    -au, au, be, -at_, av, bd, -as, aw, bc, -ar, ax, bb, -aq, ay, ba, -ap, az],
   [ca, -bf, bz, cb, -bg, by_, cc, -bh, bx, cd, -bi, bw, ce, -bj, bv, cf, -bk, bu, cg, -bl, bt, ch, -bm, bs, ci,
    -bn, br, cj, -bo, bq, ck, -bp, bp, -ck, -bq, bo, -cj, -br, bn, -ci, -bs, bm, -ch, -bt, bl, -cg, -bu, bk,
    -cf, -bv, bj, -ce, -bw, bi, -cd, -bx, bh, -cc, -by_, bg, -cb, -bz, bf, -ca],
   [am, -ah, al, an, -ai, ak, ao, -aj, aj, -ao, -ak, ai, -an, -al, ah, -am, -am, ah, -al, -an, ai, -ak, -ao, aj,
    -aj, ao, ak, -ai, an, al, -ah, am, am, -ah, al, an, -ai, ak, ao, -aj, aj, -ao, -ak, ai, -an, -al, ah, -am,
    -am, ah, -al, -an, ai, -ak, -ao, aj, -aj, ao, ak, -ai, an, al, -ah, am],
   [cb, -bi, bu, ci, -bp, bn, -cg, -bw, bg, -bz, -cd, bk, -bs, -ck, br, -bl, ce, by_, -bf, bx, cf, -bm, bq, -cj,
    -bt, bj, -cc, -ca, bh, -bv, -ch, bo, -bo, ch, bv, -bh, ca, cc, -bj, bt, cj, -bq, bm, -cf, -bx, bf, -by_,
    -ce, bl, -br, ck, bs, -bk, cd, bz, -bg, bw, cg, -bn, bp, -ci, -bu, bi, -cb],
   [ba, -ar, av, -be, -aw, aq, -az, -bb, as, -au, bd, ax, -ap, ay, bc, -at_, at_, -bc, -ay, ap, -ax, -bd, au,
    -as, bb, az, -aq, aw, be, -av, ar, -ba, -ba, ar, -av, be, aw, -aq, az, bb, -as, au, -bd, -ax, ap, -ay, -bc,
    at_, -at_, bc, ay, -ap, ax, bd, -au, as, -bb, -az, aq, -aw, -be, av, -ar, ba],
   [cc, -bl, bp, -cg, -by_, bh, -bt, ck, bu, -bg, bx, ch, -bq, bk, -cb, -cd, bm, -bo, cf, bz, -bi, bs, -cj, -bv,
    bf, -bw, -ci, br, -bj, ca, ce, -bn, bn, -ce, -ca, bj, -br, ci, bw, -bf, bv, cj, -bs, bi, -bz, -cf, bo, -bm,
    cd, cb, -bk, bq, -ch, -bx, bg, -bu, -ck, bt, -bh, by_, cg, -bp, bl, -cc],
   [ac, -ab, ab, -ac, -ac, ab, -ab, ac, ac, -ab, ab, -ac, -ac, ab, -ab, ac, ac, -ab, ab, -ac, -ac, ab, -ab, ac,
    ac, -ab, ab, -ac, -ac, ab, -ab, ac, ac, -ab, ab, -ac, -ac, ab, -ab, ac, ac, -ab, ab, -ac, -ac, ab, -ab, ac,
    ac, -ab, ab, -ac, -ac, ab, -ab, ac, ac, -ab, ab, -ac, -ac, ab, -ab, ac],
   [cd, -bo, bk, -bz, -ch, bs, -bg, bv, -ck, -bw, bh, -br, cg, ca, -bl, bn, -cc, -ce, bp, -bj, by_, ci, -bt, bf,
    -bu, cj, bx, -bi, bq, -cf, -cb, bm, -bm, cb, cf, -bq, bi, -bx, -cj, bu, -bf, bt, -ci, -by_, bj, -bp, ce, cc,
    -bn, bl, -ca, -cg, br, -bh, bw, ck, -bv, bg, -bs, ch, bz, -bk, bo, -cd],
   [bb, -au, aq, -ax, be, ay, -ar, at_, -ba, -bc, av, -ap, aw, -bd, -az, as, -as, az, bd, -aw, ap, -av, bc, ba,
    -at_, ar, -ay, -be, ax, -aq, au, -bb, -bb, au, -aq, ax, -be, -ay, ar, -at_, ba, bc, -av, ap, -aw, bd, az,
    -as, as, -az, -bd, aw, -ap, av, -bc, -ba, at_, -ar, ay, be, -ax, aq, -au, bb],
   [ce, -br, bf, -bs, cf, cd, -bq, bg, -bt, cg, cc, -bp, bh, -bu, ch, cb, -bo, bi, -bv, ci, ca, -bn, bj, -bw,
    cj, bz, -bm, bk, -bx, ck, by_, -bl, bl, -by_, -ck, bx, -bk, bm, -bz, -cj, bw, -bj, bn, -ca, -ci, bv, -bi,
    bo, -cb, -ch, bu, -bh, bp, -cc, -cg, bt, -bg, bq, -cd, -cf, bs, -bf, br, -ce],
   [an, -ak, ah, -aj, am, ao, -al, ai, -ai, al, -ao, -am, aj, -ah, ak, -an, -an, ak, -ah, aj, -am, -ao, al, -ai,
    ai, -al, ao, am, -aj, ah, -ak, an, an, -ak, ah, -aj, am, ao, -al, ai, -ai, al, -ao, -am, aj, -ah, ak, -an,
    -an, ak, -ah, aj, -am, -ao, al, -ai, ai, -al, ao, am, -aj, ah, -ak, an],
   [cf, -bu, bj, -bl, bw, -ch, -cd, bs, -bh, bn, -by_, cj, cb, -bq, bf, -bp, ca, ck, -bz, bo, -bg, br, -cc, -ci,
    bx, -bm, bi, -bt, ce, cg, -bv, bk, -bk, bv, -cg, -ce, bt, -bi, bm, -bx, ci, cc, -br, bg, -bo, bz, -ck, -ca,
    bp, -bf, bq, -cb, -cj, by_, -bn, bh, -bs, cd, ch, -bw, bl, -bj, bu, -cf],
   [bc, -ax, as, -aq, av, -ba, -be, az, -au, ap, -at_, ay, -bd, -bb, aw, -ar, ar, -aw, bb, bd, -ay, at_, -ap,
    au, -az, be, ba, -av, aq, -as, ax, -bc, -bc, ax, -as, aq, -av, ba, be, -az, au, -ap, at_, -ay, bd, bb, -aw,
    ar, -ar, aw, -bb, -bd, ay, -at_, ap, -au, az, -be, -ba, av, -aq, as, -ax, bc],
   [cg, -bx, bo, -bf, bn, -bw, cf, ch, -by_, bp, -bg, bm, -bv, ce, ci, -bz, bq, -bh, bl, -bu, cd, cj, -ca, br,
    -bi, bk, -bt, cc, ck, -cb, bs, -bj, bj, -bs, cb, -ck, -cc, bt, -bk, bi, -br, ca, -cj, -cd, bu, -bl, bh, -bq,
    bz, -ci, -ce, bv, -bm, bg, -bp, by_, -ch, -cf, bw, -bn, bf, -bo, bx, -cg],
   [ag, -af, ae, -ad, ad, -ae, af, -ag, -ag, af, -ae, ad, -ad, ae, -af, ag, ag, -af, ae, -ad, ad, -ae, af, -ag,
    -ag, af, -ae, ad, -ad, ae, -af, ag, ag, -af, ae, -ad, ad, -ae, af, -ag, -ag, af, -ae, ad, -ad, ae, -af, ag,
    ag, -af, ae, -ad, ad, -ae, af, -ag, -ag, af, -ae, ad, -ad, ae, -af, ag],
   [ch, -ca, bt, -bm, bf, -bl, bs, -bz, cg, ci, -cb, bu, -bn, bg, -bk, br, -by_, cf, cj, -cc, bv, -bo, bh, -bj,
    bq, -bx, ce, ck, -cd, bw, -bp, bi, -bi, bp, -bw, cd, -ck, -ce, bx, -bq, bj, -bh, bo, -bv, cc, -cj, -cf, by_,
    -br, bk, -bg, bn, -bu, cb, -ci, -cg, bz, -bs, bl, -bf, bm, -bt, ca, -ch],
   [bd, -ba, ax, -au, ar, -ap, as, -av, ay, -bb, be, bc, -az, aw, -at_, aq, -aq, at_, -aw, az, -bc, -be, bb,
    -ay, av, -as, ap, -ar, au, -ax, ba, -bd, -bd, ba, -ax, au, -ar, ap, -as, av, -ay, bb, -be, -bc, az, -aw,
    at_, -aq, aq, -at_, aw, -az, bc, be, -bb, ay, -av, as, -ap, ar, -au, ax, -ba, bd],
   [ci, -cd, by_, -bt, bo, -bj, bf, -bk, bp, -bu, bz, -ce, cj, ch, -cc, bx, -bs, bn, -bi, bg, -bl, bq, -bv, ca,
    -cf, ck, cg, -cb, bw, -br, bm, -bh, bh, -bm, br, -bw, cb, -cg, -ck, cf, -ca, bv, -bq, bl, -bg, bi, -bn, bs,
    -bx, cc, -ch, -cj, ce, -bz, bu, -bp, bk, -bf, bj, -bo, bt, -by_, cd, -ci],
   [ao, -an, am, -al, ak, -aj, ai, -ah, ah, -ai, aj, -ak, al, -am, an, -ao, -ao, an, -am, al, -ak, aj, -ai, ah,
    -ah, ai, -aj, ak, -al, am, -an, ao, ao, -an, am, -al, ak, -aj, ai, -ah, ah, -ai, aj, -ak, al, -am, an, -ao,
    -ao, an, -am, al, -ak, aj, -ai, ah, -ah, ai, -aj, ak, -al, am, -an, ao],
   [cj, -cg, cd, -ca, bx, -bu, br, -bo, bl, -bi, bf, -bh, bk, -bn, bq, -bt, bw, -bz, cc, -cf, ci, ck, -ch, ce,
    -cb, by_, -bv, bs, -bp, bm, -bj, bg, -bg, bj, -bm, bp, -bs, bv, -by_, cb, -ce, ch, -ck, -ci, cf, -cc, bz,
    -bw, bt, -bq, bn, -bk, bh, -bf, bi, -bl, bo, -br, bu, -bx, ca, -cd, cg, -cj],
   [be, -bd, bc, -bb, ba, -az, ay, -ax, aw, -av, au, -at_, as, -ar, aq, -ap, ap, -aq, ar, -as, at_, -au, av,
    -aw, ax, -ay, az, -ba, bb, -bc, bd, -be, -be, bd, -bc, bb, -ba, az, -ay, ax, -aw, av, -au, at_, -as, ar,
    -aq, ap, -ap, aq, -ar, as, -at_, au, -av, aw, -ax, ay, -az, ba, -bb, bc, -bd, be],
   [ck, -cj, ci, -ch, cg, -cf, ce, -cd, cc, -cb, ca, -bz, by_, -bx, bw, -bv, bu, -bt, bs, -br, bq, -bp, bo, -bn,
    bm, -bl, bk, -bj, bi, -bh, bg, -bf, bf, -bg, bh, -bi, bj, -bk, bl, -bm, bn, -bo, bp, -bq, br, -bs, bt, -bu,
    bv, -bw, bx, -by_, bz, -ca, cb, -cc, cd, -ce, cf, -cg, ch, -ci, cj, -ck]]

def g_trCoreDCT2P64 : List (List ℤ) :=
  DEFINE_DCT2_P64_MATRIX 64 83 36 89 75 50 18 90 87 80 70 57 43 25 9 90 90 88 85 82 78 73 67 61 54 46 38 31 22
    13 4 91 90 90 90 88 87 86 84 83 81 79 77 73 71 69 65 62 59 56 52 48 44 41 37 33 28 24 20 15 11 7 2

/-! ## DST-VII -/

def DEFINE_DST7_P4_MATRIX (a b c d : ℤ) : List (List ℤ) :=
  [[a, b, c, d],
   [c, c, 0, -c],
   [d, -a, -c, b],
   [b, -d, c, -a]]

def g_trCoreDST7P4 : List (List ℤ) := DEFINE_DST7_P4_MATRIX 29 55 74 84

def DEFINE_DST7_P16_MATRIX (a b c d e f g h i j k l m n o p : ℤ) : List (List ℤ) :=
  [[a, b, c, d, e, f, g, h, i, j, k, l, m, n, o, p],
   [c, f, i, l, o, o, l, i, f, c, 0, -c, -f, -i, -l, -o],
   [e, j, o, m, h, c, -b, -g, -l, -p, -k, -f, -a, d, i, n],
   [g, n, l, e, -b, -i, -p, -j, -c, d, k, o, h, a, -f, -m],
   [i, o, f, -c, -l, -l, -c, f, o, i, 0, -i, -o, -f, c, l],
   [k, k, 0, -k, -k, 0, k, k, 0, -k, -k, 0, k, k, 0, -k],
   [m, g, -f, -n, -a, l, h, -e, -o, -b, k, i, -d, -p, -c, j],
   [o, c, -l, -f, i, i, -f, -l, c, o, 0, -o, -c, l, f, -i],
   [p, -a, -o, b, n, -c, -m, d, l, -e, -k, f, j, -g, -i, h],
   [n, -e, -i, j, d, -o, a, m, -f, -h, k, c, -p, b, l, -g],
   [l, -i, -c, o, -f, -f, o, -c, -i, l, 0, -l, i, c, -o, f],
   [j, -m, c, g, -p, f, d, -n, i, a, -k, l, -b, -h, o, -e],
   [h, -p, i, -a, -g, o, -j, b, f, -n, k, -c, -e, m, -l, d],
   [f, -l, o, -i, c, c, -i, o, -l, f, 0, -f, l, -o, i, -c],
   [d, -h, l, -p, m, -i, e, -a, -c, g, -k, o, -n, j, -f, b],
   [b, -d, f, -h, j, -l, n, -p, o, -m, k, -i, g, -e, c, -a]]

def g_trCoreDST7P16 : List (List ℤ) := DEFINE_DST7_P16_MATRIX 8 17 25 33 40 48 55 62 68 73 77 81 85 87 88 88

end ECM.CommonLib.RomTr
