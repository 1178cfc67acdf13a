import KeyEngine.Config

/-!
# The standard configuration

What a configuration says where the user says nothing: a split layout of three rows of six keys and
three thumb keys for each hand, with layers for shifted symbols, numbers, functions, navigation and
symbols.
-/

namespace KeyEngine

/-- The standard numbers and switches. -/
def Globals.standard : Globals where
  tappingTerm := .ofWord 220
  permissiveHold := true
  ignoreInterrupt := false
  holdOnOtherKeyPress := false
  tappingForceHold := true
  tapToggle := 3
  oneShotTimeout := .ofWord 2000

/-- One-shots ignore nothing. -/
def OneShotRules.standard : OneShotRules := ⟨[], []⟩

namespace Config

/-- The layer of shifted symbols holds the left shift. -/
def standardLayerModifiers : ByName ModifierSet := [("shifted", .single .leftShift)]

/-- The standard layers. -/
def standardLayers : List LayerRows :=
    [⟨"base",
      ["ESC, Q, W, RT(E), R, T, Y, U, I, O, P, SLSH",
       "TAB, CTL_T(A), ALT_T(S), CMD_T(D), LT(1, F), G, H, LT(1, J), CMD_T(K), " ++
        "ALT_T(L), CTL_T(COLN), MS(A(E), A(E))",
       "MS(A(GRV), A(GRV)), Z, X, C, V, B, N, M, COMM, DOT, MINS, QUOT",
       "LT(4, G(Z)), LT(5, ENT), S(G(Z)), DEL, LT(2, SPC), LT(3, BSPC)"]⟩,
     ⟨"shifted",
      ["_______, _______, _______, _______, _______, _______, _______, _______, " ++
        "_______, _______, _______, AT",
       "_______, _______, _______, _______, _______, _______, _______, _______, " ++
        "_______, _______, _______, MS(A(U), A(U))",
       "MS(EQL, EQL), _______, _______, _______, _______, _______, _______, _______, " ++
        "QUES, EXLM, UNDS, DQT",
       "_______, _______, _______, _______, _______, _______"]⟩,
     ⟨"nums",
      ["XXXXXXX, PSLS, 7, 8, 9, PMNS, XXXXXXX, XXXXXXX, XXXXXXX, XXXXXXX, XXXXXXX, " ++
        "XXXXXXX",
       "XXXXXXX, PAST, 4, 5, 6, PPLS, XXXXXXX, RSFT, RGUI, RALT, RCTL, XXXXXXX",
       "XXXXXXX, PERC, 1, 2, 3, XXXXXXX, XXXXXXX, XXXXXXX, XXXXXXX, XXXXXXX, XXXXXXX, " ++
        "XXXXXXX",
       "XXXXXXX, 0, XXXXXXX, XXXXXXX, XXXXXXX, XXXXXXX"]⟩,
     ⟨"fun",
      ["XXXXXXX, F10, F7, F8, F9, VOLU, XXXXXXX, XXXXXXX, XXXXXXX, XXXXXXX, XXXXXXX, " ++
        "XXXXXXX",
       "XXXXXXX, F11, F4, F5, F6, VOLD, XXXXXXX, RSFT, RGUI, RALT, RCTL, XXXXXXX",
       "XXXXXXX, F12, F1, F2, F3, MUTE, XXXXXXX, XXXXXXX, XXXXXXX, XXXXXXX, XXXXXXX, " ++
        "XXXXXXX",
       "XXXXXXX, XXXXXXX, XXXXXXX, XXXXXXX, XXXXXXX, XXXXXXX"]⟩,
     ⟨"nav",
      ["XXXXXXX, XXXXXXX, XXXXXXX, XXXXXXX, XXXXXXX, XXXXXXX, PGUP, A(LEFT), UP, " ++
        "A(RGHT), XXXXXXX, XXXXXXX",
       "CAPS, LCTL, LALT, LGUI, LSFT, XXXXXXX, G(LEFT), LEFT, DOWN, RGHT, G(RGHT), " ++
        "XXXXXXX",
       "XXXXXXX, XXXXXXX, XXXXXXX, XXXXXXX, XXXXXXX, XXXXXXX, PGDN, G(V), G(C), G(X), " ++
        "XXXXXXX, XXXXXXX",
       "XXXXXXX, XXXXXXX, XXXXXXX, XXXXXXX, XXXXXXX, CANCEL"]⟩,
     ⟨"sym",
      ["XXXXXXX, XXXXXXX, A(2), XXXXXXX, XXXXXXX, XXXXXXX, DLR, LBRC, RBRC, PIPE, " ++
        "AMPR, BSLS",
       "XXXXXXX, XXXXXXX, XXXXXXX, XXXXXXX, XXXXXXX, XXXXXXX, HASH, LPRN, RPRN, " ++
        "MACRO(MINS, GT), SLSH, PERC",
       "XXXXXXX, XXXXXXX, XXXXXXX, XXXXXXX, XXXXXXX, XXXXXXX, CIRC, LCBR, RCBR, LT, " ++
        "GT, TILD",
       "XXXXXXX, XXXXXXX, XXXXXXX, XXXXXXX, XXXXXXX, XXXXXXX"]⟩]

/-- The standard configuration. -/
def standard : Config := ⟨.standard, .standard, standardLayerModifiers, standardLayers⟩

end Config

end KeyEngine
