import ECM.CommonLib.Contexts

/-! # Context initialisation

`ContextSetCfg::sm_InitTables`, as the `addCtxSet` calls of the source fill it
from `SplitFlag` on: the initial states, the window sizes and the weights of
each slice type (B, P, I), and the window offsets of both bin values. -/

namespace ECM.CommonLib.Contexts

def initStateB : List Nat :=
  [11, 20, 44, 4, 6, 30, 20, 15, 31, 19, 14, 23, 11, 12, 13, 43, 35, 44, 42, 37, 36, 37, 21, 22, 56,
    59, 60, 14, 23, 14, 26, 29, 44, 44, 29, 35, 35, 35, 35, 35, 20, 43, 42, 35, 35, 35, 35, 35, 35,
    35, 19, 18, 58, 43, 36, 36, 28, 35, 33, 59, 33, 28, 36, 36, 29, 11, 35, 21, 29, 29, 29, 44, 25,
    33, 18, 25, 21, 18, 51, 51, 51, 43, 25, 59, 44, 36, 28, 44, 28, 6, 6, 26, 26, 25, 35, 35, 48,
    49, 42, 33, 33, 42, 7, 33, 46, 35, 35, 7, 13, 12, 4, 18, 3, 10, 0, 20, 28, 35, 35, 35, 25, 43,
    30, 48, 50, 50, 50, 19, 6, 7, 19, 4, 12, 4, 44, 36, 53, 38, 38, 29, 20, 34, 27, 45, 37, 43, 34,
    48, 34, 41, 49, 41, 17, 42, 51, 20, 43, 35, 35, 33, 14, 0, 4, 5, 46, 23, 30, 13, 14, 25, 38, 17,
    36, 22, 25, 38, 17, 45, 17, 41, 42, 29, 9, 42, 28, 37, 33, 44, 51, 45, 25, 42, 43, 29, 41, 60,
    60, 38, 26, 45, 53, 46, 19, 54, 61, 39, 34, 39, 39, 39, 41, 45, 38, 31, 4, 39, 39, 39, 26, 54,
    39, 39, 34, 39, 39, 39, 0, 39, 39, 39, 26, 38, 54, 39, 26, 39, 39, 39, 33, 40, 33, 26, 34, 42,
    25, 33, 34, 34, 27, 25, 34, 42, 42, 35, 33, 27, 35, 42, 35, 33, 25, 26, 19, 42, 27, 33, 42, 35,
    35, 35, 25, 0, 40, 25, 33, 26, 0, 17, 25, 33, 19, 9, 25, 26, 34, 20, 25, 18, 19, 20, 37, 25, 9,
    25, 33, 26, 12, 17, 33, 34, 28, 45, 9, 17, 26, 27, 35, 21, 25, 34, 35, 36, 37, 33, 35, 36, 29,
    30, 34, 36, 37, 45, 38, 9, 25, 27, 36, 13, 37, 42, 37, 45, 38, 46, 21, 6, 12, 14, 7, 4, 14, 7,
    6, 4, 14, 7, 14, 6, 5, 14, 7, 14, 14, 22, 20, 21, 14, 29, 5, 35, 35, 35, 35, 35, 35, 35, 35, 35,
    35, 35, 4, 12, 3, 5, 5, 20, 6, 6, 4, 6, 14, 5, 12, 14, 7, 13, 5, 20, 21, 7, 6, 5, 28, 43, 21, 6,
    21, 57, 35, 35, 35, 35, 35, 35, 35, 35, 35, 35, 35, 26, 20, 34, 34, 48, 43, 10, 10, 38, 53, 37,
    11, 29, 38, 18, 29, 38, 18, 36, 45, 51, 35, 43, 42, 17, 35, 50, 58, 45, 45, 30, 38, 45, 38, 46,
    25, 9, 43, 46, 46, 35, 26, 43, 33, 40, 49, 42, 20, 43, 20, 28, 35, 40, 35, 35, 41, 34, 42, 39,
    35, 59, 33, 50, 59, 53, 11, 23, 46, 18, 46, 54, 18, 46, 54, 27, 19, 35, 39, 33, 44, 46, 18, 44,
    46, 56, 43, 25, 43, 45, 34, 28, 52, 18, 20, 37, 25, 35, 37, 3, 35, 10, 3, 3, 4, 11, 11, 4, 14,
    5, 10, 61, 28, 33, 38, 34, 34, 34, 26, 34, 34, 34, 26, 35, 35, 35, 35, 35]

def initStateP : List Nat :=
  [11, 20, 52, 12, 21, 30, 13, 15, 31, 5, 7, 23, 11, 12, 13, 36, 35, 44, 34, 45, 36, 37, 36, 22, 57,
    59, 60, 7, 31, 6, 5, 29, 44, 37, 44, 35, 35, 35, 35, 35, 21, 20, 42, 35, 35, 35, 35, 35, 35, 35,
    26, 18, 43, 28, 21, 36, 28, 43, 26, 60, 20, 21, 29, 29, 29, 4, 35, 13, 21, 36, 29, 44, 33, 25,
    26, 40, 28, 25, 50, 50, 43, 50, 25, 58, 29, 36, 21, 37, 28, 6, 28, 26, 34, 25, 35, 35, 48, 49,
    50, 33, 0, 25, 57, 0, 46, 35, 35, 7, 6, 5, 4, 11, 18, 10, 48, 5, 29, 35, 35, 35, 40, 34, 36, 56,
    50, 43, 28, 19, 5, 6, 34, 4, 4, 5, 44, 43, 38, 38, 38, 29, 28, 42, 27, 45, 44, 28, 42, 33, 34,
    41, 34, 41, 10, 42, 51, 28, 19, 35, 35, 0, 21, 0, 12, 5, 46, 31, 6, 13, 7, 25, 5, 17, 36, 53,
    25, 45, 25, 45, 17, 41, 42, 29, 25, 42, 43, 37, 33, 44, 51, 30, 18, 27, 28, 29, 34, 45, 45, 38,
    26, 38, 38, 46, 34, 54, 54, 39, 13, 39, 39, 39, 34, 38, 53, 54, 44, 39, 39, 39, 19, 39, 54, 39,
    19, 39, 39, 39, 48, 39, 39, 39, 34, 38, 62, 39, 26, 39, 39, 39, 33, 25, 33, 26, 34, 42, 25, 33,
    34, 42, 27, 25, 34, 42, 42, 35, 26, 27, 42, 35, 35, 33, 25, 26, 19, 34, 27, 33, 42, 35, 35, 35,
    1, 0, 17, 17, 25, 26, 0, 9, 25, 33, 34, 9, 25, 33, 34, 20, 25, 33, 19, 27, 29, 1, 1, 25, 18, 11,
    12, 17, 33, 19, 20, 22, 1, 17, 26, 34, 35, 44, 25, 34, 35, 36, 37, 33, 20, 36, 29, 37, 34, 28,
    37, 37, 38, 9, 25, 35, 28, 21, 22, 35, 37, 30, 30, 23, 6, 13, 12, 6, 6, 12, 14, 6, 5, 12, 29,
    14, 6, 6, 6, 14, 14, 6, 6, 14, 53, 14, 6, 22, 54, 35, 35, 35, 35, 35, 35, 35, 35, 35, 35, 35,
    19, 26, 25, 5, 5, 4, 6, 6, 4, 14, 14, 5, 4, 14, 7, 13, 5, 14, 21, 7, 13, 13, 14, 22, 14, 6, 6,
    30, 35, 35, 35, 35, 35, 35, 35, 35, 35, 35, 35, 26, 11, 25, 34, 41, 28, 61, 5, 38, 37, 30, 5,
    30, 38, 19, 29, 45, 19, 21, 37, 36, 35, 36, 35, 0, 42, 59, 51, 30, 30, 38, 23, 38, 53, 46, 25,
    1, 36, 46, 46, 35, 33, 43, 33, 48, 49, 42, 20, 58, 19, 28, 35, 48, 35, 35, 34, 34, 34, 39, 35,
    59, 33, 50, 59, 60, 6, 15, 31, 12, 46, 54, 5, 46, 54, 20, 27, 27, 39, 3, 37, 46, 3, 45, 46, 57,
    43, 0, 19, 36, 27, 36, 52, 18, 27, 29, 40, 35, 44, 10, 35, 17, 10, 3, 3, 25, 11, 4, 21, 12, 10,
    53, 27, 25, 46, 34, 34, 19, 26, 41, 41, 26, 41, 35, 35, 35, 35, 35]

def initStateI : List Nat :=
  [27, 36, 38, 35, 29, 38, 28, 38, 31, 4, 13, 7, 33, 27, 22, 43, 50, 29, 27, 52, 44, 45, 44, 45, 0,
    42, 36, 19, 35, 35, 33, 42, 43, 27, 18, 35, 35, 35, 35, 35, 35, 35, 35, 35, 35, 35, 35, 35, 35,
    35, 35, 35, 35, 35, 35, 35, 35, 35, 35, 35, 34, 43, 36, 35, 25, 35, 35, 35, 35, 35, 35, 35, 35,
    35, 35, 35, 35, 25, 59, 52, 44, 59, 25, 60, 29, 36, 20, 44, 50, 23, 21, 59, 12, 34, 35, 35, 48,
    41, 42, 25, 40, 19, 21, 33, 37, 35, 35, 35, 35, 35, 35, 35, 35, 35, 35, 35, 35, 35, 35, 35, 35,
    35, 35, 35, 35, 35, 35, 35, 35, 35, 35, 35, 35, 35, 21, 30, 38, 38, 38, 29, 28, 42, 27, 45, 44,
    28, 42, 33, 35, 35, 35, 35, 35, 35, 35, 35, 35, 35, 35, 11, 50, 0, 27, 6, 52, 15, 12, 5, 7, 12,
    14, 26, 13, 37, 18, 31, 25, 7, 25, 19, 28, 14, 18, 28, 29, 30, 27, 45, 30, 38, 25, 27, 28, 37,
    27, 53, 53, 46, 26, 38, 46, 54, 27, 39, 39, 39, 28, 39, 39, 39, 19, 46, 38, 39, 44, 39, 39, 39,
    18, 39, 39, 39, 27, 39, 39, 39, 0, 39, 39, 39, 11, 39, 39, 39, 26, 39, 39, 39, 33, 25, 18, 26,
    34, 27, 25, 26, 19, 42, 35, 33, 19, 27, 35, 35, 34, 42, 20, 43, 20, 33, 25, 26, 42, 19, 27, 26,
    50, 35, 35, 35, 25, 1, 40, 25, 33, 19, 9, 25, 25, 18, 12, 17, 33, 26, 19, 13, 33, 19, 20, 28,
    22, 40, 1, 25, 18, 34, 12, 25, 34, 35, 36, 37, 25, 25, 11, 27, 20, 29, 33, 12, 28, 21, 22, 34,
    28, 29, 29, 30, 28, 29, 45, 30, 23, 40, 41, 35, 36, 21, 37, 36, 37, 45, 38, 46, 21, 5, 4, 6, 6,
    4, 6, 14, 14, 4, 14, 7, 30, 14, 4, 22, 38, 15, 22, 6, 4, 7, 45, 22, 6, 35, 35, 35, 35, 35, 35,
    35, 35, 35, 35, 35, 12, 4, 3, 13, 5, 4, 14, 6, 11, 14, 14, 5, 11, 14, 7, 6, 5, 3, 22, 38, 22,
    14, 5, 4, 36, 30, 6, 4, 35, 35, 35, 35, 35, 35, 35, 35, 35, 35, 35, 20, 4, 3, 34, 35, 35, 60, 5,
    23, 22, 22, 50, 45, 38, 27, 37, 38, 35, 29, 30, 35, 51, 43, 42, 25, 42, 42, 50, 37, 45, 30, 46,
    45, 38, 46, 25, 1, 27, 38, 38, 35, 33, 43, 33, 35, 35, 35, 35, 35, 35, 35, 35, 25, 35, 35, 42,
    50, 58, 35, 35, 35, 34, 35, 35, 35, 39, 39, 39, 31, 39, 39, 46, 39, 39, 19, 27, 19, 39, 18, 37,
    46, 10, 37, 46, 35, 35, 40, 27, 36, 20, 29, 58, 18, 20, 38, 25, 28, 38, 11, 35, 10, 3, 3, 3, 4,
    5, 13, 14, 5, 2, 46, 28, 25, 46, 34, 34, 34, 18, 34, 34, 35, 35, 35, 35, 35, 35, 35]

def rateB : List Nat :=
  [5, 9, 4, 9, 13, 12, 9, 9, 12, 6, 12, 12, 12, 8, 8, 10, 9, 9, 8, 5, 12, 13, 12, 13, 6, 6, 10, 6,
    6, 5, 5, 5, 5, 5, 9, 8, 8, 8, 8, 8, 4, 4, 4, 8, 8, 8, 8, 8, 8, 8, 6, 6, 9, 5, 4, 4, 4, 4, 3, 1,
    4, 5, 4, 4, 8, 5, 8, 5, 5, 5, 4, 5, 5, 5, 5, 6, 2, 6, 4, 5, 5, 6, 6, 4, 6, 6, 1, 2, 6, 1, 2, 1,
    5, 5, 8, 8, 9, 10, 8, 6, 1, 4, 6, 1, 5, 8, 8, 0, 0, 1, 1, 5, 5, 6, 1, 1, 1, 8, 8, 8, 6, 5, 5, 5,
    5, 9, 5, 5, 1, 0, 1, 1, 5, 0, 6, 3, 1, 12, 8, 4, 2, 5, 3, 4, 0, 0, 5, 4, 13, 13, 12, 12, 2, 6,
    5, 1, 1, 1, 8, 1, 1, 4, 3, 1, 1, 6, 1, 9, 9, 6, 2, 3, 2, 13, 8, 5, 5, 8, 13, 9, 9, 10, 9, 10, 9,
    10, 8, 9, 9, 9, 8, 13, 9, 13, 5, 5, 8, 10, 9, 13, 12, 8, 8, 8, 8, 4, 0, 0, 0, 0, 8, 12, 12, 8,
    4, 0, 0, 0, 8, 8, 8, 12, 8, 4, 4, 8, 4, 0, 0, 0, 8, 12, 8, 8, 0, 0, 0, 0, 8, 9, 13, 13, 13, 13,
    13, 13, 13, 13, 13, 12, 13, 13, 13, 13, 9, 13, 13, 12, 13, 9, 13, 13, 13, 13, 13, 9, 9, 13, 13,
    13, 1, 9, 9, 6, 6, 5, 9, 9, 10, 9, 6, 9, 9, 9, 5, 5, 6, 8, 5, 9, 9, 1, 6, 9, 5, 5, 2, 6, 9, 8,
    5, 8, 9, 8, 6, 9, 10, 9, 9, 10, 13, 13, 10, 9, 10, 9, 10, 10, 6, 9, 10, 13, 13, 9, 9, 9, 9, 13,
    10, 5, 6, 5, 9, 9, 5, 5, 5, 6, 5, 1, 6, 5, 2, 1, 6, 1, 1, 1, 1, 2, 2, 1, 1, 1, 0, 1, 4, 4, 0, 8,
    8, 8, 8, 8, 8, 8, 8, 8, 8, 8, 1, 4, 1, 6, 5, 5, 6, 5, 5, 6, 6, 5, 1, 2, 6, 1, 1, 0, 2, 2, 1, 0,
    0, 0, 1, 8, 4, 0, 8, 8, 8, 8, 8, 8, 8, 8, 8, 8, 8, 2, 5, 0, 6, 5, 1, 1, 1, 6, 2, 3, 8, 0, 4, 5,
    4, 4, 5, 4, 8, 10, 8, 5, 13, 1, 5, 9, 9, 6, 9, 10, 5, 0, 9, 5, 2, 1, 8, 9, 9, 8, 5, 2, 5, 2, 6,
    10, 5, 5, 2, 13, 8, 6, 8, 8, 6, 6, 6, 1, 8, 1, 5, 1, 0, 4, 8, 4, 5, 12, 0, 2, 12, 0, 5, 1, 1, 1,
    1, 4, 1, 5, 4, 2, 8, 1, 2, 5, 5, 6, 1, 0, 1, 6, 9, 5, 13, 13, 5, 5, 8, 1, 2, 1, 3, 1, 1, 1, 2,
    1, 5, 5, 7, 5, 8, 13, 10, 10, 10, 13, 12, 10, 9, 8, 8, 8, 8, 8]

def rateP : List Nat :=
  [12, 12, 4, 13, 13, 12, 9, 9, 12, 5, 8, 9, 12, 12, 8, 10, 9, 13, 9, 6, 12, 13, 12, 13, 6, 6, 9, 6,
    6, 6, 6, 5, 5, 5, 9, 8, 8, 8, 8, 8, 4, 5, 5, 8, 8, 8, 8, 8, 8, 8, 6, 5, 10, 5, 5, 5, 5, 4, 2, 1,
    5, 5, 5, 4, 8, 5, 8, 5, 5, 4, 5, 9, 5, 5, 5, 6, 2, 6, 4, 5, 4, 5, 6, 4, 6, 10, 6, 2, 6, 1, 2, 5,
    5, 5, 8, 8, 9, 9, 8, 6, 8, 8, 0, 12, 5, 8, 8, 1, 1, 1, 1, 5, 9, 6, 1, 1, 5, 8, 8, 8, 6, 5, 5, 5,
    5, 5, 5, 5, 1, 1, 1, 1, 5, 0, 6, 3, 6, 10, 9, 6, 7, 7, 5, 5, 4, 1, 2, 3, 13, 13, 12, 12, 2, 5,
    1, 1, 0, 1, 8, 1, 4, 0, 8, 1, 1, 6, 0, 5, 9, 6, 0, 2, 2, 2, 8, 5, 9, 13, 13, 9, 9, 10, 9, 10,
    10, 10, 8, 9, 9, 9, 13, 13, 13, 13, 5, 5, 8, 9, 9, 13, 12, 8, 8, 8, 8, 5, 0, 0, 0, 0, 8, 12, 12,
    8, 4, 0, 0, 0, 8, 8, 8, 12, 8, 4, 4, 8, 0, 0, 0, 0, 8, 8, 8, 8, 0, 0, 0, 0, 9, 9, 9, 12, 13, 13,
    13, 13, 13, 13, 13, 12, 13, 13, 13, 13, 10, 13, 13, 13, 13, 8, 13, 13, 12, 13, 13, 13, 13, 13,
    13, 13, 2, 8, 5, 9, 9, 5, 12, 12, 9, 13, 2, 9, 9, 9, 9, 5, 6, 5, 9, 9, 9, 5, 8, 9, 5, 5, 2, 6,
    9, 5, 5, 8, 9, 9, 6, 9, 10, 10, 9, 10, 13, 13, 10, 10, 10, 10, 10, 9, 9, 9, 10, 9, 13, 9, 13,
    13, 13, 13, 10, 5, 9, 5, 5, 9, 5, 5, 5, 6, 5, 1, 6, 5, 1, 0, 6, 1, 1, 1, 0, 1, 1, 1, 0, 0, 0, 1,
    4, 0, 0, 8, 8, 8, 8, 8, 8, 8, 8, 8, 8, 8, 6, 5, 5, 5, 5, 5, 6, 6, 1, 6, 6, 5, 1, 6, 5, 1, 0, 0,
    2, 2, 1, 0, 0, 0, 1, 8, 0, 0, 8, 8, 8, 8, 8, 8, 8, 8, 8, 8, 8, 2, 6, 2, 9, 5, 4, 1, 8, 3, 3, 3,
    5, 0, 4, 4, 4, 4, 4, 4, 4, 10, 8, 6, 13, 1, 5, 9, 9, 6, 9, 10, 5, 0, 9, 5, 2, 5, 12, 8, 8, 8, 6,
    3, 8, 2, 6, 10, 6, 5, 5, 13, 8, 6, 8, 8, 7, 7, 5, 1, 8, 1, 5, 1, 0, 5, 4, 4, 4, 4, 4, 4, 4, 0,
    4, 1, 1, 1, 1, 1, 1, 1, 4, 2, 4, 2, 3, 4, 7, 7, 1, 0, 2, 7, 9, 5, 13, 13, 6, 3, 8, 3, 2, 1, 0,
    6, 3, 2, 2, 5, 6, 5, 2, 7, 7, 13, 13, 13, 10, 13, 13, 10, 9, 8, 8, 8, 8, 8]

def rateI : List Nat :=
  [12, 12, 13, 9, 13, 12, 5, 5, 9, 4, 5, 9, 12, 12, 12, 9, 9, 9, 4, 5, 12, 13, 12, 13, 5, 10, 7, 4,
    8, 8, 6, 7, 6, 13, 12, 8, 8, 8, 8, 8, 8, 8, 8, 8, 8, 8, 8, 8, 8, 8, 8, 8, 8, 8, 8, 8, 8, 8, 8,
    8, 5, 4, 10, 13, 13, 8, 8, 8, 8, 8, 8, 8, 8, 4, 8, 8, 8, 6, 4, 8, 4, 4, 6, 8, 6, 6, 1, 2, 6, 1,
    6, 5, 5, 5, 8, 8, 10, 10, 8, 6, 6, 5, 0, 2, 5, 8, 8, 8, 8, 8, 8, 8, 8, 8, 8, 8, 8, 8, 8, 8, 8,
    8, 8, 8, 8, 8, 8, 8, 8, 8, 8, 8, 8, 8, 13, 9, 6, 10, 9, 6, 7, 7, 5, 5, 4, 1, 2, 3, 8, 8, 8, 8,
    8, 8, 8, 8, 8, 8, 8, 1, 4, 8, 3, 6, 1, 5, 1, 5, 5, 5, 3, 2, 2, 3, 5, 5, 5, 9, 13, 9, 9, 10, 10,
    10, 10, 13, 9, 9, 10, 10, 12, 12, 9, 13, 5, 5, 9, 9, 9, 13, 12, 8, 8, 8, 8, 4, 4, 0, 0, 0, 8,
    12, 12, 8, 0, 0, 0, 0, 8, 8, 12, 12, 8, 0, 4, 4, 0, 0, 0, 0, 8, 8, 8, 8, 4, 0, 0, 0, 8, 9, 9,
    13, 13, 13, 13, 13, 13, 13, 13, 13, 13, 13, 13, 13, 13, 13, 13, 13, 13, 12, 13, 12, 12, 12, 13,
    13, 13, 13, 12, 13, 4, 9, 6, 6, 6, 5, 9, 12, 9, 9, 6, 13, 10, 10, 10, 10, 6, 9, 10, 10, 10, 2,
    9, 9, 8, 8, 2, 10, 5, 8, 8, 9, 9, 5, 6, 10, 10, 10, 13, 10, 13, 13, 13, 9, 10, 10, 10, 13, 10,
    10, 10, 10, 13, 9, 12, 9, 8, 8, 9, 9, 12, 8, 12, 13, 9, 5, 5, 6, 5, 4, 5, 5, 1, 1, 5, 1, 1, 0,
    0, 1, 1, 1, 0, 0, 0, 5, 4, 0, 0, 8, 8, 8, 8, 8, 8, 8, 8, 8, 8, 8, 6, 4, 1, 9, 5, 8, 6, 5, 4, 6,
    5, 4, 0, 6, 6, 1, 4, 0, 1, 1, 1, 1, 0, 0, 0, 4, 4, 0, 8, 8, 8, 8, 8, 8, 8, 8, 8, 8, 8, 6, 5, 2,
    12, 8, 8, 0, 8, 3, 1, 2, 4, 0, 8, 0, 7, 4, 0, 2, 4, 8, 10, 5, 10, 1, 5, 9, 9, 6, 9, 10, 5, 0, 9,
    5, 1, 5, 9, 9, 5, 8, 9, 1, 9, 8, 8, 8, 8, 8, 8, 8, 8, 3, 8, 8, 6, 6, 2, 8, 8, 8, 6, 8, 8, 8, 0,
    2, 1, 0, 6, 8, 0, 1, 8, 0, 0, 0, 5, 4, 3, 4, 4, 3, 5, 8, 8, 6, 6, 9, 1, 1, 2, 5, 10, 10, 13, 13,
    10, 6, 8, 1, 1, 1, 1, 6, 2, 2, 7, 1, 5, 6, 5, 9, 8, 13, 10, 7, 7, 10, 10, 8, 8, 8, 8, 8, 8, 8]

def weightB : List Nat :=
  [4, 11, 11, 11, 4, 11, 4, 4, 11, 4, 4, 11, 11, 4, 18, 4, 11, 4, 11, 11, 11, 11, 11, 4, 18, 18, 18,
    18, 4, 18, 18, 18, 18, 18, 11, 18, 18, 18, 18, 18, 18, 18, 18, 18, 18, 18, 18, 18, 18, 18, 18,
    18, 18, 18, 11, 11, 11, 11, 4, 11, 18, 18, 18, 18, 18, 18, 18, 18, 18, 18, 11, 11, 18, 18, 18,
    18, 18, 18, 11, 11, 18, 18, 11, 11, 11, 4, 11, 11, 18, 18, 18, 18, 11, 18, 18, 18, 18, 18, 18,
    18, 11, 32, 25, 18, 4, 18, 18, 18, 11, 11, 4, 18, 18, 18, 32, 11, 4, 18, 18, 18, 18, 18, 18, 18,
    18, 25, 18, 11, 11, 4, 4, 18, 11, 4, 4, 11, 18, 18, 18, 18, 18, 18, 18, 18, 18, 18, 18, 18, 4,
    4, 4, 4, 11, 11, 18, 11, 11, 11, 18, 18, 25, 32, 32, 4, 18, 18, 18, 18, 25, 18, 32, 18, 18, 4,
    25, 18, 18, 11, 11, 11, 18, 18, 11, 18, 18, 11, 11, 18, 18, 11, 4, 25, 11, 11, 18, 18, 18, 18,
    11, 11, 18, 18, 18, 25, 25, 18, 4, 32, 32, 32, 18, 18, 25, 25, 25, 32, 32, 32, 18, 25, 25, 32,
    18, 18, 25, 32, 32, 32, 32, 32, 25, 32, 25, 25, 18, 32, 32, 32, 4, 11, 11, 11, 4, 4, 11, 11, 11,
    11, 4, 11, 18, 11, 11, 4, 11, 18, 11, 11, 4, 11, 11, 18, 18, 11, 4, 4, 4, 18, 18, 4, 11, 11, 18,
    4, 4, 18, 4, 4, 11, 4, 18, 11, 11, 18, 4, 4, 11, 18, 11, 18, 11, 18, 4, 4, 4, 4, 4, 4, 4, 11, 4,
    11, 11, 4, 4, 4, 4, 18, 11, 11, 18, 11, 4, 18, 18, 11, 11, 4, 18, 11, 18, 18, 11, 11, 11, 11, 4,
    11, 11, 11, 4, 4, 18, 11, 18, 18, 18, 18, 18, 11, 18, 18, 18, 18, 18, 11, 18, 25, 25, 11, 11,
    18, 25, 32, 32, 18, 32, 32, 32, 18, 18, 18, 18, 18, 18, 18, 18, 18, 18, 18, 11, 18, 4, 18, 18,
    18, 18, 18, 18, 18, 18, 18, 18, 4, 18, 11, 18, 25, 11, 4, 11, 11, 25, 32, 18, 32, 32, 32, 18,
    18, 18, 18, 18, 18, 18, 18, 18, 18, 18, 18, 32, 11, 4, 18, 11, 32, 18, 4, 25, 25, 18, 4, 11, 4,
    18, 11, 11, 11, 32, 11, 18, 11, 11, 18, 18, 18, 18, 18, 18, 18, 18, 18, 18, 18, 18, 11, 11, 11,
    18, 18, 4, 18, 4, 11, 18, 11, 4, 11, 11, 11, 18, 11, 18, 18, 11, 11, 18, 32, 18, 11, 18, 11, 32,
    4, 11, 25, 25, 32, 11, 4, 32, 11, 11, 32, 32, 32, 11, 4, 18, 4, 11, 25, 18, 11, 11, 25, 18, 32,
    18, 18, 25, 11, 18, 18, 4, 18, 18, 18, 18, 18, 25, 25, 32, 11, 18, 18, 18, 11, 18, 18, 18, 25,
    32, 11, 4, 4, 11, 11, 11, 11, 11, 18, 18, 18, 18, 18]

def weightP : List Nat :=
  [11, 18, 11, 18, 11, 4, 11, 4, 4, 4, 4, 4, 4, 11, 4, 11, 4, 11, 11, 4, 4, 4, 4, 4, 18, 11, 11, 11,
    4, 18, 18, 18, 18, 18, 11, 18, 18, 18, 18, 18, 18, 18, 18, 18, 18, 18, 18, 18, 18, 18, 18, 18,
    11, 18, 18, 18, 18, 11, 4, 11, 18, 18, 18, 18, 18, 25, 18, 18, 18, 11, 18, 25, 18, 18, 11, 18,
    18, 11, 11, 18, 4, 11, 11, 18, 11, 11, 11, 4, 11, 18, 18, 25, 11, 11, 18, 18, 11, 11, 18, 11, 4,
    25, 32, 11, 18, 18, 18, 32, 18, 11, 4, 11, 18, 4, 18, 18, 18, 18, 18, 18, 11, 18, 18, 18, 18,
    11, 18, 11, 11, 18, 4, 25, 4, 11, 4, 11, 18, 18, 18, 18, 18, 18, 18, 18, 18, 18, 18, 18, 4, 4,
    18, 4, 11, 11, 4, 11, 11, 11, 18, 4, 32, 32, 32, 4, 18, 18, 18, 4, 11, 25, 32, 18, 18, 25, 25,
    18, 11, 25, 11, 11, 18, 18, 18, 18, 18, 11, 18, 18, 18, 11, 18, 18, 18, 11, 11, 11, 18, 18, 11,
    11, 32, 11, 18, 25, 25, 25, 32, 32, 32, 32, 11, 11, 25, 25, 25, 32, 32, 32, 18, 25, 18, 32, 18,
    18, 25, 32, 25, 32, 32, 32, 18, 18, 25, 25, 18, 32, 32, 32, 11, 11, 4, 11, 4, 4, 11, 11, 11, 4,
    4, 11, 11, 11, 4, 4, 11, 11, 11, 11, 4, 4, 11, 18, 11, 11, 4, 11, 18, 11, 18, 4, 4, 4, 4, 4, 4,
    18, 11, 4, 4, 11, 4, 4, 11, 18, 18, 4, 11, 4, 18, 18, 11, 4, 4, 11, 11, 4, 4, 4, 4, 11, 11, 11,
    11, 11, 4, 4, 4, 18, 11, 11, 18, 11, 4, 18, 18, 11, 11, 4, 18, 18, 11, 11, 11, 4, 18, 18, 18,
    18, 11, 11, 18, 11, 11, 11, 18, 18, 18, 18, 18, 11, 18, 18, 18, 18, 18, 11, 18, 25, 32, 11, 11,
    18, 18, 32, 32, 18, 18, 32, 32, 18, 18, 18, 18, 18, 18, 18, 18, 18, 18, 18, 18, 18, 18, 4, 11,
    11, 18, 18, 4, 18, 18, 18, 18, 18, 18, 11, 18, 32, 18, 4, 18, 18, 32, 32, 18, 32, 32, 32, 18,
    18, 18, 18, 18, 18, 18, 18, 18, 18, 18, 11, 18, 4, 4, 11, 11, 18, 32, 4, 18, 18, 32, 4, 18, 18,
    18, 18, 18, 18, 18, 11, 18, 11, 11, 18, 18, 18, 18, 18, 18, 18, 18, 18, 18, 18, 18, 18, 18, 11,
    18, 18, 11, 11, 11, 11, 11, 11, 11, 11, 11, 11, 18, 11, 18, 18, 4, 4, 4, 32, 18, 11, 11, 11, 32,
    11, 18, 25, 18, 25, 32, 18, 32, 18, 18, 25, 32, 32, 4, 4, 18, 4, 11, 25, 11, 11, 11, 18, 11, 18,
    18, 18, 25, 18, 4, 4, 4, 11, 11, 4, 18, 11, 4, 4, 11, 11, 18, 11, 11, 11, 18, 18, 18, 11, 4, 4,
    4, 11, 11, 4, 4, 4, 4, 18, 18, 18, 18, 18]

def weightI : List Nat :=
  [18, 11, 32, 11, 11, 4, 11, 4, 4, 32, 18, 32, 4, 4, 18, 18, 18, 18, 4, 18, 18, 11, 18, 11, 18, 11,
    11, 18, 18, 18, 18, 18, 4, 4, 4, 18, 18, 18, 18, 18, 18, 18, 18, 18, 18, 18, 18, 18, 18, 18, 18,
    18, 18, 18, 18, 18, 18, 18, 18, 18, 18, 18, 18, 18, 18, 18, 18, 18, 18, 18, 18, 18, 18, 18, 18,
    18, 18, 18, 4, 18, 4, 4, 18, 25, 18, 11, 11, 11, 18, 11, 25, 25, 11, 18, 18, 18, 18, 11, 11, 11,
    25, 32, 4, 25, 11, 18, 18, 18, 18, 18, 18, 18, 18, 18, 18, 18, 18, 18, 18, 18, 18, 18, 18, 18,
    18, 18, 18, 18, 18, 18, 18, 18, 18, 18, 25, 4, 18, 18, 18, 18, 18, 18, 18, 18, 18, 18, 18, 18,
    18, 18, 18, 18, 18, 18, 18, 18, 18, 18, 18, 18, 25, 11, 25, 32, 18, 18, 18, 11, 4, 18, 32, 18,
    18, 32, 18, 18, 18, 18, 18, 11, 18, 11, 18, 11, 11, 11, 18, 18, 18, 11, 18, 18, 11, 18, 11, 11,
    11, 11, 18, 11, 32, 11, 18, 32, 32, 18, 32, 32, 32, 32, 18, 18, 18, 25, 32, 32, 32, 32, 18, 25,
    32, 32, 18, 25, 32, 32, 32, 32, 32, 32, 18, 18, 25, 25, 25, 32, 32, 32, 11, 4, 4, 4, 4, 4, 11,
    11, 11, 11, 4, 11, 11, 11, 11, 4, 11, 11, 11, 11, 11, 11, 11, 4, 11, 4, 4, 11, 11, 11, 11, 11,
    18, 11, 4, 4, 4, 18, 11, 18, 11, 11, 18, 18, 18, 18, 18, 18, 11, 18, 18, 18, 11, 11, 4, 11, 18,
    18, 4, 11, 4, 18, 18, 11, 11, 4, 4, 4, 4, 18, 18, 11, 11, 11, 18, 11, 11, 11, 11, 11, 18, 18,
    11, 11, 11, 11, 18, 11, 4, 4, 11, 11, 18, 4, 18, 18, 25, 18, 18, 18, 25, 25, 18, 25, 18, 32, 25,
    18, 25, 18, 32, 18, 18, 25, 32, 32, 32, 32, 32, 32, 32, 18, 18, 18, 18, 18, 18, 18, 18, 18, 18,
    18, 18, 18, 11, 18, 18, 18, 18, 18, 18, 18, 18, 18, 18, 25, 25, 18, 32, 32, 18, 18, 25, 32, 32,
    32, 25, 32, 32, 32, 18, 18, 18, 18, 18, 18, 18, 18, 18, 18, 18, 11, 18, 4, 4, 18, 18, 18, 32,
    18, 11, 18, 32, 4, 32, 32, 32, 11, 25, 11, 18, 18, 11, 4, 11, 18, 18, 18, 18, 18, 18, 18, 18,
    18, 18, 18, 11, 11, 18, 18, 4, 18, 18, 11, 18, 18, 18, 18, 18, 18, 18, 18, 18, 11, 18, 18, 11,
    11, 11, 18, 18, 18, 4, 18, 18, 18, 32, 32, 18, 32, 18, 25, 32, 4, 18, 32, 18, 18, 4, 32, 11, 25,
    18, 18, 25, 18, 18, 25, 18, 25, 18, 18, 32, 18, 25, 25, 4, 11, 18, 11, 18, 18, 18, 18, 18, 25,
    18, 18, 18, 18, 32, 25, 11, 32, 25, 11, 11, 4, 4, 4, 4, 18, 18, 18, 18, 18, 18, 18]

def rateOffset0 : List Nat :=
  [131, 134, 142, 133, 238, 238, 110, 116, 137, 176, 107, 117, 124, 182, 148, 120, 119, 148, 211,
    125, 237, 139, 186, 120, 110, 117, 119, 133, 131, 110, 119, 134, 126, 126, 198, 119, 119, 119,
    119, 119, 135, 118, 125, 119, 119, 119, 119, 119, 119, 119, 196, 117, 116, 142, 157, 157, 142,
    155, 109, 126, 119, 119, 119, 119, 119, 119, 119, 126, 141, 187, 219, 238, 119, 119, 141, 106,
    119, 123, 115, 109, 101, 100, 124, 117, 117, 119, 121, 126, 119, 125, 116, 117, 116, 116, 119,
    119, 104, 118, 118, 108, 99, 101, 133, 115, 109, 119, 119, 116, 116, 117, 117, 117, 103, 67,
    228, 122, 125, 119, 119, 119, 121, 117, 118, 126, 126, 181, 126, 116, 119, 148, 102, 118, 132,
    164, 141, 116, 119, 119, 119, 119, 119, 119, 119, 119, 119, 119, 119, 119, 222, 83, 181, 94,
    116, 139, 118, 132, 148, 126, 119, 118, 133, 83, 156, 118, 119, 117, 118, 100, 147, 106, 117,
    116, 118, 91, 116, 124, 93, 151, 90, 119, 117, 121, 123, 119, 117, 126, 126, 132, 118, 132, 119,
    108, 119, 103, 125, 133, 132, 118, 118, 238, 151, 158, 148, 182, 166, 142, 131, 168, 238, 138,
    132, 233, 221, 197, 116, 197, 214, 116, 119, 190, 190, 171, 132, 155, 142, 139, 82, 117, 238,
    229, 227, 190, 168, 158, 115, 185, 229, 196, 78, 90, 91, 102, 126, 126, 89, 119, 103, 158, 119,
    171, 119, 126, 125, 123, 106, 135, 120, 119, 135, 69, 123, 115, 100, 101, 119, 121, 117, 121,
    117, 236, 99, 69, 83, 90, 78, 147, 68, 84, 124, 103, 116, 88, 105, 125, 117, 117, 105, 120, 121,
    124, 125, 99, 69, 76, 101, 100, 117, 99, 100, 102, 102, 116, 88, 99, 107, 117, 117, 117, 92,
    122, 117, 116, 110, 116, 123, 118, 122, 117, 116, 124, 126, 125, 124, 74, 99, 109, 115, 115,
    117, 117, 100, 164, 110, 118, 116, 117, 118, 125, 119, 118, 122, 118, 126, 132, 118, 121, 118,
    228, 116, 133, 126, 118, 148, 148, 116, 165, 237, 212, 116, 119, 119, 119, 119, 119, 119, 119,
    119, 119, 119, 119, 117, 118, 117, 116, 120, 118, 119, 123, 118, 118, 124, 119, 132, 117, 116,
    124, 134, 116, 126, 118, 119, 118, 196, 116, 196, 151, 232, 116, 119, 119, 119, 119, 119, 119,
    119, 119, 119, 119, 119, 117, 118, 117, 122, 118, 126, 116, 232, 115, 116, 116, 99, 165, 203,
    99, 134, 237, 99, 148, 238, 119, 126, 116, 116, 119, 119, 119, 119, 119, 119, 119, 119, 119,
    119, 119, 119, 102, 104, 135, 133, 119, 107, 119, 86, 118, 110, 100, 117, 122, 119, 102, 119,
    107, 119, 119, 124, 126, 126, 115, 119, 126, 92, 126, 116, 118, 85, 133, 135, 115, 212, 139, 85,
    164, 136, 231, 230, 229, 93, 99, 117, 122, 100, 130, 135, 126, 126, 117, 124, 119, 117, 132,
    117, 117, 125, 133, 90, 189, 110, 116, 119, 132, 226, 227, 227, 116, 117, 118, 145, 118, 164,
    117, 226, 227, 132, 110, 102, 104, 100, 100, 91, 99, 98, 119, 119, 119, 119, 119]

def rateOffset1 : List Nat :=
  [140, 237, 101, 202, 236, 227, 121, 125, 84, 138, 238, 235, 238, 235, 181, 133, 137, 157, 117,
    119, 102, 92, 110, 107, 123, 142, 228, 105, 131, 117, 117, 105, 117, 116, 238, 119, 119, 119,
    119, 119, 116, 121, 119, 119, 119, 119, 119, 119, 119, 119, 121, 117, 118, 116, 103, 104, 108,
    117, 115, 122, 119, 119, 119, 119, 119, 132, 119, 117, 102, 100, 100, 87, 125, 125, 118, 117,
    118, 146, 150, 138, 139, 168, 121, 148, 119, 126, 119, 109, 121, 116, 117, 147, 131, 118, 119,
    119, 117, 118, 120, 124, 147, 161, 114, 131, 133, 119, 119, 116, 148, 148, 124, 148, 148, 119,
    116, 124, 103, 119, 119, 119, 126, 133, 148, 117, 117, 110, 116, 117, 117, 116, 211, 148, 132,
    118, 126, 68, 119, 119, 119, 119, 119, 119, 119, 119, 119, 119, 119, 119, 100, 116, 100, 101,
    132, 109, 131, 118, 117, 126, 119, 120, 132, 212, 147, 102, 119, 116, 116, 179, 139, 131, 132,
    121, 126, 130, 116, 119, 116, 121, 120, 133, 118, 125, 117, 126, 119, 120, 117, 117, 132, 108,
    109, 117, 126, 124, 119, 110, 126, 137, 126, 236, 126, 91, 117, 131, 131, 98, 228, 116, 116,
    116, 117, 155, 98, 102, 149, 98, 116, 99, 119, 115, 108, 92, 117, 99, 99, 82, 134, 116, 116,
    116, 117, 182, 118, 116, 134, 114, 114, 99, 133, 147, 117, 118, 126, 134, 120, 126, 140, 120,
    140, 147, 126, 121, 133, 126, 147, 118, 126, 212, 119, 198, 118, 120, 132, 137, 124, 116, 133,
    138, 135, 104, 134, 163, 118, 117, 116, 117, 148, 119, 117, 131, 118, 117, 131, 117, 117, 115,
    126, 116, 116, 116, 118, 118, 117, 118, 119, 148, 116, 117, 119, 134, 141, 120, 227, 117, 116,
    100, 104, 117, 117, 126, 120, 156, 135, 118, 116, 124, 120, 102, 117, 116, 118, 116, 90, 117,
    115, 119, 138, 167, 121, 118, 221, 105, 164, 105, 117, 118, 117, 132, 228, 103, 132, 228, 149,
    117, 164, 149, 149, 229, 116, 126, 132, 227, 228, 228, 116, 132, 228, 228, 116, 119, 119, 119,
    119, 119, 119, 119, 119, 119, 119, 119, 132, 118, 117, 116, 118, 118, 126, 228, 117, 116, 147,
    230, 117, 132, 195, 165, 229, 116, 118, 123, 149, 228, 228, 116, 117, 230, 213, 116, 119, 119,
    119, 119, 119, 119, 119, 119, 119, 119, 119, 131, 148, 116, 100, 118, 102, 116, 197, 102, 116,
    117, 198, 98, 99, 151, 98, 99, 141, 129, 99, 117, 117, 116, 125, 119, 119, 119, 119, 119, 119,
    119, 119, 119, 119, 119, 147, 117, 135, 99, 83, 119, 116, 120, 133, 126, 126, 133, 124, 117,
    117, 110, 119, 131, 119, 119, 126, 124, 117, 98, 119, 117, 147, 117, 116, 119, 153, 237, 64,
    167, 132, 64, 165, 227, 64, 116, 116, 116, 67, 142, 130, 99, 135, 130, 99, 117, 126, 147, 117,
    146, 120, 117, 117, 227, 228, 123, 104, 238, 119, 110, 119, 118, 118, 118, 116, 118, 117, 116,
    102, 117, 117, 116, 115, 118, 195, 110, 110, 116, 116, 116, 110, 117, 125, 119, 119, 119, 119,
    119]

def smInitTables : List (List Nat) :=
  [initStateB, initStateP, initStateI, rateB, rateP, rateI, weightB, weightP, weightI,
    rateOffset0, rateOffset1]

/-- `ContextSetCfg::getInitTable`. -/
def getInitTable (initId : Nat) : Checked (List Nat) := do
  check (initId ≥ smInitTables.length)
    s!"Invalid initId ({initId}), only {smInitTables.length} tables defined."
  return smInitTables.getD initId []

/-- `NUMBER_OF_SLICE_TYPES`. -/
def numberOfSliceTypes : Nat := 3

/-- `MAX_QP`. -/
def maxQP : Int := 63

namespace CtxStore

/-- `CtxStore(true)`: one default model for each context. -/
def fresh : CtxStore := List.replicate initStateB.length .new

/-- The body of the loop of `init` for context `k`. -/
def initModel (qp : Int) (initTable rateTable weightTable offsetTable0 offsetTable1 : List Nat)
    (k : Nat) (m : BinProbModel) : Checked BinProbModel := do
  let m ← (m.init qp (initTable.getD k 0)).setLog2WindowSize (rateTable.getD k 0)
  return { m with rateOffset0 := offsetTable0.getD k 0, rateOffset1 := offsetTable1.getD k 0,
                  weight := weightTable.getD k 0 }

/-- The loop of `init` from context `k` on. -/
def initFrom (qp : Int) (initTable rateTable weightTable offsetTable0 offsetTable1 : List Nat) :
    Nat → CtxStore → Checked CtxStore
  | _, [] => .ok []
  | k, m :: ms => do
    let m ← initModel qp initTable rateTable weightTable offsetTable0 offsetTable1 k m
    let ms ← initFrom qp initTable rateTable weightTable offsetTable0 offsetTable1 (k + 1) ms
    return m :: ms

def init (s : CtxStore) (qp : Int) (initId : Nat) : Checked CtxStore := do
  let size := s.length
  let initTable ← getInitTable initId
  check (size ≠ initTable.length)
    s!"Size of init table ({initTable.length}) does not match size of context buffer ({size})."
  let rateTable ← getInitTable (numberOfSliceTypes + initId)
  check (size ≠ rateTable.length)
    s!"Size of rate init table ({rateTable.length}) does not match size of context buffer ({size})."
  let weightTable ← getInitTable (numberOfSliceTypes <<< 1 + initId)
  check (size ≠ weightTable.length)
    s!"Size of weight init table ({weightTable.length}) does not match size of context buffer ({size})."
  let offsetTable0 ← getInitTable (numberOfSliceTypes * 3)
  let offsetTable1 ← getInitTable (numberOfSliceTypes * 3 + 1)
  check (size ≠ offsetTable0.length)
    s!"Size of weight init table ({offsetTable0.length}) does not match size of context buffer ({size})."
  check (size ≠ offsetTable1.length)
    s!"Size of weight init table ({offsetTable1.length}) does not match size of context buffer ({size})."
  initFrom (max 0 (min maxQP qp)) initTable rateTable weightTable offsetTable0 offsetTable1 0 s

end CtxStore

/-! ## Initialised stores satisfy the state invariant -/

theorem weightTables_le {initId : Nat} (h : initId < 3) :
    ∀ w ∈ smInitTables.getD (6 + initId) [], w >>> 3 ≤ 4 ∧ w &&& 7 ≤ 4 := by
  have : initId = 0 ∨ initId = 1 ∨ initId = 2 := by omega
  rcases this with rfl | rfl | rfl <;> decide +kernel

theorem BinProbModel.init_state_le (m : BinProbModel) (qp : Int) (initId : Nat) :
    (m.init qp initId).state0 ≤ 0x7fff ∧ (m.init qp initId).state1 ≤ 0x7fff ∧
      (m.init qp initId).stateUsed0 ≤ 0x7fff ∧ (m.init qp initId).stateUsed1 ≤ 0x7fff :=
  ⟨Nat.and_le_right, Nat.and_le_right, Nat.and_le_right, Nat.and_le_right⟩

theorem tables_length {i : Nat} (h : i < 11) : (smInitTables.getD i []).length = 536 := by
  have : ∀ i, i < 11 → (smInitTables.getD i []).length = 536 := by decide +kernel
  exact this i h

/-- Every window size of the rate tables passes its check. -/
theorem rateTables_window {initId : Nat} (h : initId < 3) :
    ∀ w ∈ smInitTables.getD (3 + initId) [], ¬3 + (2 + ((w >>> 2) &&& 3)) + (w &&& 3) > 9 := by
  have : initId = 0 ∨ initId = 1 ∨ initId = 2 := by omega
  rcases this with rfl | rfl | rfl <;> decide +kernel

namespace CtxStore

variable {qp : Int} {initTable rateTable weightTable offsetTable0 offsetTable1 : List Nat}

/-- The models that `init` writes satisfy the invariant. -/
theorem initModel_ok (hw : ∀ w ∈ weightTable, w >>> 3 ≤ 4 ∧ w &&& 7 ≤ 4) {k : Nat}
    {m m' : BinProbModel}
    (h : initModel qp initTable rateTable weightTable offsetTable0 offsetTable1 k m = .ok m') :
    m'.Ok := by
  obtain ⟨m₁, hm₁, h⟩ := bind_eq_ok h
  obtain ⟨-, -, hm₁⟩ := bind_eq_ok hm₁
  cases hm₁
  cases h
  obtain ⟨h0, h1, hu0, hu1⟩ := m.init_state_le qp (initTable.getD k 0)
  have hweight : weightTable.getD k 0 >>> 3 ≤ 4 ∧ weightTable.getD k 0 &&& 7 ≤ 4 := by
    rw [List.getD_eq_getElem?_getD]
    cases hg : weightTable[k]? with
    | none => decide
    | some w => exact hw w (List.mem_of_getElem? hg)
  exact ⟨h0, h1, hu0, hu1, hweight.1, hweight.2⟩

/-- The loop writes each context on its own. -/
theorem initFrom_getElem? (s : CtxStore) : ∀ {k i : Nat} {m' : BinProbModel} {s' : CtxStore},
    initFrom qp initTable rateTable weightTable offsetTable0 offsetTable1 k s = .ok s' →
    s'[i]? = some m' → ∃ m, s[i]? = some m ∧
      initModel qp initTable rateTable weightTable offsetTable0 offsetTable1 (k + i) m = .ok m' := by
  induction s with
  | nil =>
    intro k i m' s' h hi
    cases h
    simp at hi
  | cons m ms ih =>
    intro k i m' s' h hi
    obtain ⟨m₁, hm₁, h⟩ := bind_eq_ok h
    obtain ⟨ms', hms, h⟩ := bind_eq_ok h
    cases h
    cases i with
    | zero =>
      simp only [List.getElem?_cons_zero, Option.some.injEq] at hi ⊢
      exact ⟨m, rfl, hi ▸ hm₁⟩
    | succ i =>
      simp only [List.getElem?_cons_succ] at hi ⊢
      rw [show k + (i + 1) = k + 1 + i by omega]
      exact ih hms hi

theorem initModel_total {k : Nat} (m : BinProbModel)
    (hr : ¬3 + (2 + ((rateTable.getD k 0 >>> 2) &&& 3)) + (rateTable.getD k 0 &&& 3) > 9) :
    ∃ m', initModel qp initTable rateTable weightTable offsetTable0 offsetTable1 k m = .ok m' := by
  rw [initModel, BinProbModel.setLog2WindowSize]
  rw [check_ok _ hr]
  exact ⟨_, rfl⟩

theorem initFrom_total (hr : ∀ w ∈ rateTable, ¬3 + (2 + ((w >>> 2) &&& 3)) + (w &&& 3) > 9)
    (s : CtxStore) : ∀ {k : Nat}, k + s.length ≤ rateTable.length → ∃ s',
      initFrom qp initTable rateTable weightTable offsetTable0 offsetTable1 k s = .ok s' ∧
        s'.length = s.length := by
  induction s with
  | nil => exact fun _ => ⟨[], rfl, rfl⟩
  | cons m ms ih =>
    intro k hk
    rw [List.length_cons] at hk
    have hmem : rateTable.getD k 0 ∈ rateTable := by
      rw [List.getD_eq_getElem _ _ (by omega)]
      exact List.getElem_mem _
    obtain ⟨ms', hms, hlen⟩ := ih (show k + 1 + ms.length ≤ rateTable.length by omega)
    obtain ⟨m', hm'⟩ := initModel_total m (hr _ hmem)
    refine ⟨m' :: ms', ?_, by rw [List.length_cons, List.length_cons, hlen]⟩
    rw [initFrom, hm', ok_bind, hms]
    rfl

/-- What `init` writes: the tables of its slice type, and the shared offsets. -/
theorem init_eq {s : CtxStore} {initId : Nat} (hid : initId < 3) (hs : s.length = 536) :
    s.init qp initId = initFrom (max 0 (min maxQP qp)) (smInitTables.getD initId [])
      (smInitTables.getD (3 + initId) []) (smInitTables.getD (6 + initId) []) rateOffset0
      rateOffset1 0 s := by
  have htable : ∀ i, i < 11 → getInitTable i = .ok (smInitTables.getD i []) := by
    intro i hi
    have hsize : ¬i ≥ smInitTables.length := by simpa [smInitTables] using hi
    rw [getInitTable, check_ok _ hsize]
    rfl
  have hlen : ∀ i, i < 11 → ¬s.length ≠ (smInitTables.getD i []).length := by
    intro i hi
    rw [hs, tables_length hi]
    simp
  unfold init
  rw [htable initId (by omega), show numberOfSliceTypes + initId = 3 + initId from rfl,
    htable (3 + initId) (by omega), show numberOfSliceTypes <<< 1 + initId = 6 + initId from rfl,
    htable (6 + initId) (by omega), show numberOfSliceTypes * 3 = 9 from rfl,
    htable 9 (by omega), htable 10 (by omega)]
  dsimp only
  rw [ok_bind, check_ok _ (hlen initId (by omega)), ok_bind, ok_bind,
    check_ok _ (hlen (3 + initId) (by omega)), ok_bind, ok_bind,
    check_ok _ (hlen (6 + initId) (by omega)), ok_bind, ok_bind, ok_bind,
    check_ok _ (hlen 9 (by omega)), ok_bind, check_ok _ (hlen 10 (by omega)), ok_bind]
  rfl

theorem init_total {s : CtxStore} {initId : Nat} (hid : initId < 3) (hs : s.length = 536) :
    ∃ s', s.init qp initId = .ok s' ∧ s'.length = 536 := by
  rw [init_eq hid hs]
  obtain ⟨s', h, hlen⟩ := initFrom_total (rateTables_window hid) s (k := 0)
    (by rw [hs, tables_length (by omega)])
  exact ⟨s', h, hlen.trans hs⟩

/-- `init` succeeds on stores of the size of the tables only. -/
theorem init_length {s s' : CtxStore} {initId : Nat} (hid : initId < 3)
    (h : s.init qp initId = .ok s') : s.length = 536 := by
  obtain ⟨initTable, htable, h⟩ := bind_eq_ok h
  obtain ⟨u, hsize, h⟩ := bind_eq_ok h
  obtain ⟨-, -, htable⟩ := bind_eq_ok htable
  cases htable
  have := check_eq_ok hsize
  rw [tables_length (by omega)] at this
  omega

theorem init_ok {s s' : CtxStore} {initId : Nat} (hid : initId < 3)
    (h : s.init qp initId = .ok s') : s'.Ok := by
  rw [init_eq hid (init_length hid h)] at h
  intro m hm
  obtain ⟨i, hi⟩ := List.mem_iff_getElem?.mp hm
  obtain ⟨m₀, -, hm₀⟩ := initFrom_getElem? s h hi
  exact initModel_ok (weightTables_le hid) hm₀

end CtxStore

end ECM.CommonLib.Contexts
