import TypedLisp.Screen

/-! Colors and styles of the viewer. -/

set_option autoImplicit false

namespace TypedLisp.Theme

def text : Color := .rgb 205 214 244
def bracket : Color := .rgb 137 180 250
def keyword : Color := .rgb 137 180 250
def leaf : Color := .rgb 250 179 135
def number : Color := .rgb 250 179 135
def boolean : Color := .rgb 245 194 231
def identifier : Color := .rgb 249 226 175
def operator : Color := .rgb 148 226 213
def comment : Color := .rgb 108 112 134
def success : Color := .rgb 166 227 161
def selection : Color := .rgb 50 50 70
def guide : Color := .rgb 69 71 90
def focusedBorder : Color := .rgb 249 226 175
def border : Color := .rgb 108 112 134

def borderStyle (focused : Bool) : Style :=
  if focused then (Style.colored focusedBorder).inBold else .colored border

end TypedLisp.Theme
